import Sentential.Datum.Basic
import Sentential.Decimal.Layout

/-!
# Plain scalars

What an unquoted scalar of YAML 1.1 denotes: nothing, a truth value, a whole number (decimal,
binary, octal, hexadecimal or in sixties), a decimal number (in tens or in sixties), or else a text.
The form decides the kind; only then is the value taken, which can fail.

## Main definitions

* `Yaml.truth?`, `Yaml.int?`, `Yaml.float?` — the scalars that are not texts
* `Yaml.scalar` — the datum of a plain scalar
-/

namespace Sentential.Yaml

/-- The spellings of nothing. -/
def nullWords : List String := ["", "~", "null", "Null", "NULL"]

/-- The spellings of true. -/
def trueWords : List String := ["yes", "Yes", "YES", "true", "True", "TRUE", "on", "On", "ON"]

/-- The spellings of false. -/
def falseWords : List String := ["no", "No", "NO", "false", "False", "FALSE", "off", "Off", "OFF"]

/-- The truth value that a scalar spells. -/
def truth? (s : String) : Option Bool :=
  if trueWords.contains s then some true
  else if falseWords.contains s then some false
  else none

/-- A text without its underscores. -/
def dropUnderscores (cs : List Char) : List Char := cs.filter (· != '_')

/-- The number that digits in a base denote; underscores between them are skipped. -/
def natIn? (base : Nat) (cs : List Char) : Option Nat :=
  (dropUnderscores cs).foldlM (fun n c => (Text.digitIn? base c).map (base * n + ·)) 0

/-- The parts of a text between colons. -/
def splitColons : List Char → List (List Char)
  | [] => [[]]
  | ':' :: rest => [] :: splitColons rest
  | c :: rest =>
    match splitColons rest with
    | [] => [[c]]
    | part :: others => (c :: part) :: others

/-- Whether a character is a digit or an underscore. -/
def isSpacedDigit (c : Char) : Bool := Text.isAsciiDigit c || c == '_'

/-- Whether a text is a digit, followed by digits and underscores. -/
def isSpacedNumber : List Char → Bool
  | [] => false
  | c :: rest => Text.isAsciiDigit c && rest.all isSpacedDigit

/-- Whether a text counts sixtieths: a number below sixty in one or two digits. -/
def isSixtieth (cs : List Char) : Bool :=
  match cs with
  | [c] => Text.isAsciiDigit c
  | [c, d] => '0' ≤ c && c ≤ '5' && Text.isAsciiDigit d
  | _ => false

/-! ### Whole numbers -/

/-- The number that decimal digits denote, unless there are too many of them. -/
def decimal (cs : List Char) : Except Datum.Fault Nat :=
  let count := (dropUnderscores cs).length
  if Datum.digitLimit < count then .error (.tooManyDigits count)
  else .ok ((natIn? 10 cs).getD 0)

/-- The number that digits behind the mark of a base denote; underscores alone are no digits. -/
def based (base : Nat) (cs : List Char) : Option (Except Datum.Fault Nat) :=
  (natIn? base cs).map (fun n =>
    if (dropUnderscores cs).isEmpty then .error (.noDigits base) else .ok n)

/-- The number that an unsigned whole scalar denotes. -/
def nat? (cs : List Char) : Option (Except Datum.Fault Nat) :=
  match cs with
  | ['0'] => some (.ok 0)
  | '0' :: 'b' :: c :: rest => based 2 (c :: rest)
  | '0' :: 'x' :: c :: rest => based 16 (c :: rest)
  -- A leading zero means octal, so `08` is a text.
  | '0' :: rest => (natIn? 8 rest).map .ok
  | _ =>
    match splitColons cs with
    | [] => none
    | whole :: parts =>
      if isSpacedNumber whole && parts.all isSixtieth then
        some ((decimal whole).map (fun n =>
          parts.foldl (fun n p => 60 * n + (natIn? 10 p).getD 0) n))
      else none

/-- The number that a whole scalar denotes. -/
def int? (cs : List Char) : Option (Except Datum.Fault Int) :=
  let (negative, rest) := Decimal.readSign cs
  (nat? rest).map (fun r => r.map (fun n => if negative then -(n : Int) else n))

/-! ### Decimal numbers -/

/-- An exponent with its sign, or nothing. -/
def exponent? (cs : List Char) : Option Int :=
  match cs with
  | [] => some 0
  | e :: sign :: digits =>
    if (e == 'e' || e == 'E') && (sign == '+' || sign == '-') && !digits.isEmpty &&
        digits.all Text.isAsciiDigit then
      (natIn? 10 digits).map (fun n => if sign = '-' then -(n : Int) else n)
    else none
  | _ => none

/-- The double that digits with a point behind `whole` of them denote. -/
def pointed (whole fraction : List Char) (exponent : Int) : Float :=
  let fraction := dropUnderscores fraction
  Decimal.ofParts false ((natIn? 10 (whole ++ fraction)).getD 0) (exponent - fraction.length)

/-- The double that an unsigned number in tens denotes: it has a point, and an exponent has a sign.
-/
def tens? (cs : List Char) : Option Float :=
  let whole := cs.takeWhile isSpacedDigit
  match cs.dropWhile isSpacedDigit with
  | '.' :: rest =>
    let valid :=
      if whole.isEmpty then rest.head?.any Text.isAsciiDigit else isSpacedNumber whole
    if valid then
      (exponent? (rest.dropWhile isSpacedDigit)).map
        (pointed whole (rest.takeWhile isSpacedDigit))
    else none
  | _ => none

/-- The double that an unsigned number in sixties denotes. Its last part has a point, and the others
count sixty times what follows them; the sum is rounded at each step, from the last part on. -/
def sixties? (cs : List Char) : Option Float :=
  match (splitColons cs).reverse with
  | [] | [_] => none
  | last :: earlier =>
    let minutes := last.takeWhile (· != '.')
    match last.dropWhile (· != '.'), earlier.reverse with
    | '.' :: fraction, whole :: middle =>
      if isSpacedNumber whole && middle.all isSixtieth && isSixtieth minutes &&
          fraction.all isSpacedDigit then
        let step (sum : Float × Int) (part : Float) : Float × Int :=
          (sum.1 + part * Decimal.ofInt sum.2, 60 * sum.2)
        let parts := pointed minutes fraction 0 :: earlier.map (fun p => pointed p [] 0)
        some (parts.foldl step (0.0, 1)).1
      else none
    | _, _ => none

/-- The double that a decimal scalar denotes. -/
def float? (cs : List Char) : Option Float :=
  let (negative, rest) := Decimal.readSign cs
  let signed (x : Float) : Float := if negative then -x else x
  let word := String.ofList rest
  if [".inf", ".Inf", ".INF"].contains word then some (signed (1.0 / 0.0))
  else if [".nan", ".NaN", ".NAN"].contains word && rest == cs then some (0.0 / 0.0)
  -- A sign needs a digit before the point.
  else if rest.head? = some '.' ∧ rest ≠ cs then none
  else ((tens? rest).orElse (fun _ => sixties? rest)).map signed

/-- The datum of a plain scalar. -/
def scalar (s : String) : Except Datum.Fault Datum :=
  if nullWords.contains s then .ok .null
  else
    match truth? s with
    | some b => .ok (.bool b)
    | none =>
      match float? s.toList with
      | some x => .ok (.float x)
      | none =>
        match int? s.toList with
        | some i => i.map .int
        | none => .ok (.text s)

end Sentential.Yaml
