import Sentential.Distinct
import Sentential.Text.Blank
import Sentential.Text.Digit
import Sentential.Text.Upper
import Sentential.Token.Basic

/-!
# Scanning

A formula text is put into upper case, trimmed, and cut into tokens from left to right. Blanks
separate tokens. At each place the longest spelling of an operator wins, then a bracket, a constant,
and a variable: one letter with the digits that follow it. Any other character is skipped and noted,
so scanning never fails.

## Main definitions

* `Token.spellings` — the accepted spellings of the operators, longest first
* `Token.Piece`, `Token.piece` — what stands at the front of a text, and its length
* `Scan`, `Token.scan` — the tokens and the skipped characters of a text
* `Token.variablesIn` — the variables that a text names
-/

namespace Sentential

namespace Token

/-- The text that is scanned: in upper case and without blanks at its ends. -/
def normalize (s : String) : String := Text.trim (Text.upper s)

/-- The accepted spellings of the operators, longest first. -/
def spellings : List (List Char × Kind) := [
  (['I', 'M', 'P', 'L', 'I', 'E', 'S'], .binary .implies),
  (['N', 'O', 'T'], .negation),
  (['A', 'N', 'D'], .binary .and),
  (['X', 'O', 'R'], .binary .xor),
  (['I', 'F', 'F'], .binary .iff),
  (['<', '-', '>'], .binary .iff),
  (['<', '=', '>'], .binary .iff),
  (['&', '&'], .binary .and),
  (['O', 'R'], .binary .or),
  (['|', '|'], .binary .or),
  (['-', '>'], .binary .implies),
  (['=', '>'], .binary .implies),
  (['¬'], .negation),
  (['!'], .negation),
  (['~'], .negation),
  (['-'], .negation),
  (['∧'], .binary .and),
  (['&'], .binary .and),
  (['∨'], .binary .or),
  (['|'], .binary .or),
  (['+'], .binary .or),
  (['⊕'], .binary .xor),
  (['^'], .binary .xor),
  (['→'], .binary .implies),
  (['↔'], .binary .iff)]

/-- The operator at the front of a text, by its longest spelling. -/
def operator? (cs : List Char) : Option (List Char × Kind) :=
  spellings.find? (fun s => s.1.isPrefixOf cs)

/-- The bracket that a character is. -/
def bracket? (c : Char) : Option Kind :=
  (Bracket.all.find? (fun b => b.opener == c)).map .opening <|>
    (Bracket.all.find? (fun b => b.closer == c)).map .closing

/-- The constant that a character is. -/
def constant? (c : Char) : Option Kind :=
  if c = '0' then some (.constant false)
  else if c = '1' then some (.constant true)
  else none

/-- Whether a variable can begin with the character. -/
def isLetter (c : Char) : Bool := 'A' ≤ c && c ≤ 'Z'

/-- What stands at the front of a text. -/
inductive Piece where
  /-- A blank. -/
  | blank
  /-- A token of the given kind. -/
  | token (kind : Kind)
  /-- A character that belongs to no token. -/
  | unknown
deriving DecidableEq, Repr

/-- What stands at the front of the text `c :: rest`, and how many characters of `rest` belong to
it. -/
def piece (c : Char) (rest : List Char) : Piece × Nat :=
  -- Blanks come first: they separate, so that `X OR` does not begin with `XOR`.
  if Text.isBlank c then (.blank, 0)
  else
    match operator? (c :: rest) with
    | some s => (.token s.2, s.1.length - 1)
    | none =>
      match bracket? c <|> constant? c with
      | some kind => (.token kind, 0)
      | none =>
        -- A word such as `AND` was found above; what begins with a letter here is a variable.
        if isLetter c then (.token .name, (rest.takeWhile Text.isAsciiDigit).length)
        else (.unknown, 0)

end Token

/-- The tokens of a text, the end mark last, and the characters that belong to none. -/
structure Scan where
  /-- The tokens in order. -/
  tokens : List Token
  /-- The skipped characters in order, each with its offset. -/
  skipped : List (Nat × Char)
deriving DecidableEq, Repr

namespace Token

/-- The scan of a text whose first character has offset `pos`. -/
def scanFrom (pos : Nat) (cs : List Char) : Scan :=
  match cs with
  | [] => ⟨[⟨.stop, "", pos⟩], []⟩
  | c :: rest =>
    let p := piece c rest
    let after := scanFrom (pos + (p.2 + 1)) (rest.drop p.2)
    match p.1 with
    | .blank => after
    | .token kind =>
      { after with tokens := ⟨kind, String.ofList (c :: rest.take p.2), pos⟩ :: after.tokens }
    | .unknown => { after with skipped := (pos, c) :: after.skipped }
termination_by cs.length
decreasing_by simp only [List.length_drop, List.length_cons]; omega

/-- The scan of a formula text. -/
def scan (s : String) : Scan := scanFrom 0 (normalize s).toList

/-- The tokens of a formula text, the end mark last. -/
def tokenize (s : String) : List Token := (scan s).tokens

/-- Names in code-point order, each once. -/
def sortedNames (l : List String) : List String :=
  (distinct l).mergeSort (fun a b => decide (a ≤ b))

theorem mem_sortedNames {l : List String} {name : String} : name ∈ sortedNames l ↔ name ∈ l := by
  rw [sortedNames, List.mem_mergeSort, mem_distinct]

/-- The variables that a text names, in code-point order. -/
def variablesIn (s : String) : List String := sortedNames (names (tokenize s))

end Token

end Sentential
