import Sentential.Datum.Basic
import Sentential.Decimal.Layout

/-!
# Reading JSON

JSON text as data. Numbers keep the difference between whole and decimal ones, a repeated name keeps
its first place and takes its last value, and the words for not-a-number and the infinities are read
as well. An escape can be half of a pair that denotes a character; alone it stands for none. The
text is read from its front to its end, so a whole number with too many digits is reported unless
the text is malformed before it. The recursion is bounded by the length of the text, since every
nested value takes at least one character.

## Main definitions

* `Json.readString` — the rest of a string after its opening quote
* `Json.readNumber` — a number after its sign
* `Json.parse` — the datum that a text denotes
-/

namespace Sentential.Json

open Datum (ReadFault)

/-- Whether a character separates the parts of a JSON text. -/
def isSpace (c : Char) : Bool := c == ' ' || c == '\t' || c == '\n' || c == '\r'

/-- The characters after the white space at the front. -/
def skipSpace (cs : List Char) : List Char := cs.dropWhile isSpace

/-- The number that four hexadecimal digits denote. -/
def hexUnit? (a b c d : Char) : Option Nat := do
  let a ← Text.digitIn? 16 a
  let b ← Text.digitIn? 16 b
  let c ← Text.digitIn? 16 c
  let d ← Text.digitIn? 16 d
  return 4096 * a + 256 * b + 16 * c + d

/-- The character that a one-letter escape denotes. -/
def escaped? : Char → Option Char
  | '"' => some '"'
  | '\\' => some '\\'
  | '/' => some '/'
  | 'b' => some '\x08'
  | 'f' => some '\x0c'
  | 'n' => some '\n'
  | 'r' => some '\r'
  | 't' => some '\t'
  | _ => none

/-- Whether a unit is the first half of a pair that denotes one character. -/
def isHighUnit (n : Nat) : Bool := 0xD800 ≤ n && n < 0xDC00

/-- Whether a unit is the second half of such a pair. -/
def isLowUnit (n : Nat) : Bool := 0xDC00 ≤ n && n < 0xE000

/-- The code point of a pair of units. -/
def pairPoint (high low : Nat) : Nat := 0x10000 + (high - 0xD800) * 0x400 + (low - 0xDC00)

/-- The code points that a list of code units denotes: a high and a low unit in sequence make one,
and half a pair alone stands for no character. -/
def joinUnits : List Nat → List Nat
  | [] => []
  | [n] => [n]
  | n :: m :: rest =>
    if isHighUnit n && isLowUnit m then pairPoint n m :: joinUnits rest
    else n :: joinUnits (m :: rest)

/-- The rest of a string after its opening quote: its code units and what follows the closing quote.
A control character may not stand in it. -/
def readUnits : List Char → Option (List Nat × List Char)
  | [] => none
  | '"' :: rest => some ([], rest)
  | '\\' :: 'u' :: a :: b :: c :: d :: rest =>
    match hexUnit? a b c d with
    | none => none
    | some n => (readUnits rest).map (fun r => (n :: r.1, r.2))
  | '\\' :: c :: rest =>
    match escaped? c with
    | none => none
    | some x => (readUnits rest).map (fun r => (x.toNat :: r.1, r.2))
  | c :: rest =>
    if c.toNat < 0x20 || c = '\\' then none
    else (readUnits rest).map (fun r => (c.toNat :: r.1, r.2))

/-- The rest of a string after its opening quote: its text and what follows the closing quote. -/
def readString (cs : List Char) : Option (Datum × List Char) :=
  (readUnits cs).map (fun r => (.ofCodes (joinUnits r.1), r.2))

/-- Splits off the ASCII digits at the front. -/
def spanDigits : List Char → List Nat × List Char
  | [] => ([], [])
  | c :: rest =>
    match Text.asciiDigit? c with
    | some d =>
      let (ds, left) := spanDigits rest
      (d :: ds, left)
    | none => ([], c :: rest)

/-- The whole part of a number: a zero alone, or digits that begin with another one. -/
def readWhole (cs : List Char) : Option (List Nat × List Char) :=
  match spanDigits cs with
  | ([], _) => none
  | (0 :: _, _) => some ([0], cs.drop 1)
  | (ds, rest) => some (ds, rest)

/-- The digits after a point, if a point with a digit follows. -/
def readFraction (cs : List Char) : Option (List Nat × List Char) :=
  match cs with
  | '.' :: rest =>
    match spanDigits rest with
    | ([], _) => none
    | r => some r
  | _ => none

/-- The exponent, if a complete one follows. -/
def readExponent (cs : List Char) : Option (Int × List Char) :=
  match cs with
  | c :: rest =>
    if c = 'e' ∨ c = 'E' then
      let (negative, rest) := Decimal.readSign rest
      match spanDigits rest with
      | ([], _) => none
      | (ds, left) =>
        let n : Int := Decimal.digitsValue ds
        some (if negative then -n else n, left)
    else none
  | [] => none

/-- The whole number that digits denote, exactly, if there are not too many of them. -/
def wholeNumber (negative : Bool) (digits : List Nat) : Except ReadFault Datum :=
  if Datum.digitLimit < digits.length then .error (.value (.tooManyDigits digits.length))
  else
    let n : Int := Decimal.digitsValue digits
    .ok (.int (if negative then -n else n))

/-- A number after its sign. -/
def readNumber (negative : Bool) (cs : List Char) : Except ReadFault (Datum × List Char) :=
  match readWhole cs with
  | none => .error .malformed
  | some (whole, rest) =>
    match readFraction rest, readExponent ((readFraction rest).elim rest Prod.snd) with
    | none, none => (wholeNumber negative whole).map (·, rest)
    | none, some (e, rest) =>
      .ok (.float (Decimal.ofParts negative (Decimal.digitsValue whole) e), rest)
    | some (ds, rest), none =>
      .ok (.float (Decimal.ofParts negative (Decimal.digitsValue (whole ++ ds)) (-ds.length)),
        rest)
    | some (ds, _), some (e, rest) =>
      .ok (.float (Decimal.ofParts negative (Decimal.digitsValue (whole ++ ds)) (e - ds.length)),
        rest)

/-- The words that denote a value, with that value. -/
def words : List (List Char × Datum) := [
  ("null".toList, .null), ("true".toList, .bool true), ("false".toList, .bool false),
  ("NaN".toList, .float (0.0 / 0.0)), ("Infinity".toList, .float (1.0 / 0.0)),
  ("-Infinity".toList, .float (-(1.0 / 0.0)))]

/-- A value that is neither a string nor has members: a word or a number. -/
def readScalar (cs : List Char) : Except ReadFault (Datum × List Char) :=
  match words.find? (fun w => w.1.isPrefixOf cs) with
  | some w => .ok (w.2, cs.drop w.1.length)
  | none =>
    match cs with
    | '-' :: rest => readNumber true rest
    | _ => readNumber false cs

mutual

/-- The value at the front. -/
def readValue : Nat → List Char → Except ReadFault (Datum × List Char)
  | 0, _ => .error .malformed
  | fuel + 1, cs =>
    match cs with
    | '"' :: rest => (readString rest).elim (.error .malformed) .ok
    | '[' :: rest =>
      match skipSpace rest with
      | ']' :: rest => .ok (.list [], rest)
      | rest => (readItems fuel rest).map (fun r => (.list r.1, r.2))
    | '\x7b' :: rest =>
      match skipSpace rest with
      | '\x7d' :: rest => .ok (.map [], rest)
      | rest => (readEntries fuel [] rest).map (fun r => (.map r.1, r.2))
    | cs => readScalar cs

/-- The members of a list up to its closing bracket. -/
def readItems : Nat → List Char → Except ReadFault (List Datum × List Char)
  | 0, _ => .error .malformed
  | fuel + 1, cs =>
    match readValue fuel cs with
    | .error fault => .error fault
    | .ok (d, rest) =>
      match skipSpace rest with
      | ']' :: rest => .ok ([d], rest)
      | ',' :: rest => (readItems fuel (skipSpace rest)).map (fun r => (d :: r.1, r.2))
      | _ => .error .malformed

/-- The entries of an object up to its closing brace, added to those already read. -/
def readEntries :
    Nat → List (Datum × Datum) → List Char → Except ReadFault (List (Datum × Datum) × List Char)
  | 0, _, _ => .error .malformed
  | fuel + 1, entries, cs =>
    match cs with
    | '"' :: rest =>
      match readString rest with
      | none => .error .malformed
      | some (name, rest) =>
        match skipSpace rest with
        | ':' :: rest =>
          match readValue fuel (skipSpace rest) with
          | .error fault => .error fault
          | .ok (d, rest) =>
            let entries := Datum.put name d entries
            match skipSpace rest with
            | '\x7d' :: rest => .ok (entries, rest)
            | ',' :: rest => readEntries fuel entries (skipSpace rest)
            | _ => .error .malformed
        | _ => .error .malformed
    | _ => .error .malformed

end

/-- The datum that a JSON text denotes, with white space allowed around it. -/
def parse (s : String) : Except ReadFault Datum :=
  let cs := s.toList
  match readValue (2 * cs.length + 2) (skipSpace cs) with
  | .error fault => .error fault
  | .ok (d, rest) => if (skipSpace rest).isEmpty then .ok d else .error .malformed

end Sentential.Json
