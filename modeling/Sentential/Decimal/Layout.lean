import Sentential.Decimal.Shortest
import Sentential.Text.Blank
import Sentential.Text.Digit
import Sentential.Text.Upper

/-!
# Written numbers

How a double is written: its shortest decimal, positionally for magnitudes from `10 ^ -4` up to
`10 ^ 16` and with an exponent otherwise; a whole number keeps `.0`. And how a written number is
read.

## Main definitions

* `Decimal.Layout` — the choices that a written form leaves open
* `Decimal.Layout.render` — a double in that form
* `Decimal.ofParts` — the double nearest to a decimal
* `Decimal.read?` — the double that a text denotes
-/

namespace Sentential.Decimal

/-- The choices of a written form. -/
structure Layout where
  /-- The least exponent that is written positionally. -/
  positionalFrom : Int
  /-- The least exponent from there up that is written with an exponent again. -/
  positionalBelow : Int
  /-- The least number of digits of an exponent. -/
  exponentDigits : Nat
  /-- The text of what is not a number. -/
  nan : String
  /-- The text of positive infinity. -/
  infinity : String

/-- The form of numbers in messages. -/
def Layout.shown : Layout := ⟨-4, 16, 2, "nan", "inf"⟩

/-- The form of numbers in documents. -/
def Layout.document : Layout := ⟨-4, 16, 2, "NaN", "Infinity"⟩

/-- The decimal digits of a number. -/
def digitChars (n : Nat) : List Char := Nat.toDigits 10 n

namespace Layout

/-- Digits with a point after the first `point` of them, filled up with zeros. -/
def positional (digits : List Char) (point : Int) : List Char :=
  if point ≤ 0 then '0' :: '.' :: (List.replicate (-point).toNat '0' ++ digits)
  else if (digits.length : Int) ≤ point then
    -- A whole number: its digits, the missing zeros, and one zero after the point.
    digits ++ List.replicate (point.toNat - digits.length) '0' ++ ['.', '0']
  else digits.take point.toNat ++ '.' :: digits.drop point.toNat

/-- The exponent mark, its sign and at least `width` digits. -/
def exponentMark (width : Nat) (e : Int) : List Char :=
  let digits := digitChars e.natAbs
  'e' :: (if e < 0 then '-' else '+') :: (List.replicate (width - digits.length) '0' ++ digits)

/-- A positive decimal in a form. -/
def decimal (f : Layout) (d : Scientific) : List Char :=
  let digits := digitChars d.digits
  let point : Int := digits.length + d.exponent
  if f.positionalFrom ≤ point - 1 ∧ point - 1 < f.positionalBelow then positional digits point
  else
    match digits with
    | [] => []
    | [c] => c :: exponentMark f.exponentDigits (point - 1)
    | c :: rest => c :: '.' :: (rest ++ exponentMark f.exponentDigits (point - 1))

/-- A double in a form, from its bit pattern. -/
def ofBits (f : Layout) (bits : Nat) : String :=
  let sign := if bits / Nat.pow 2 63 = 1 then "-" else ""
  let exponent := bits / Nat.pow 2 52 % Nat.pow 2 11
  let fraction := bits % Nat.pow 2 52
  if exponent = 2047 then
    if fraction = 0 then sign ++ f.infinity else f.nan
  else if exponent = 0 ∧ fraction = 0 then sign ++ "0.0"
  else sign ++ String.ofList (f.decimal (Cell.ofFields exponent fraction).shortest)

/-- A double in a form. -/
def render (f : Layout) (x : Float) : String := f.ofBits x.toBits.toNat

end Layout

/-- The double nearest to `± digits · 10 ^ exponent`. Magnitudes beyond `10 ^ ±400` are decided
without computing the power. -/
def ofParts (negative : Bool) (digits : Nat) (exponent : Int) : Float :=
  let size : Int := (digitChars digits).length + exponent
  let x : Float :=
    if digits = 0 then 0.0
    else if 400 < size then 1.0 / 0.0
    else if size < -400 then 0.0
    else Float.ofScientific digits (exponent < 0) exponent.natAbs
  if negative then -x else x

/-- The double nearest to a whole number. -/
def ofInt (i : Int) : Float := ofParts (i < 0) i.natAbs 0

/-- Reads the digits that follow a digit; a single underscore may stand between two of them. -/
def readMoreDigits (digit? : Char → Option Nat) : List Char → List Nat × List Char
  | [] => ([], [])
  | '_' :: c :: rest =>
    match digit? c with
    | some d =>
      let (ds, left) := readMoreDigits digit? rest
      (d :: ds, left)
    | none => ([], '_' :: c :: rest)
  | c :: rest =>
    match digit? c with
    | some d =>
      let (ds, left) := readMoreDigits digit? rest
      (d :: ds, left)
    | none => ([], c :: rest)

/-- Reads one or more digits. -/
def readDigits (digit? : Char → Option Nat) : List Char → Option (List Nat × List Char)
  | [] => none
  | c :: rest =>
    (digit? c).map (fun d =>
      let (ds, left) := readMoreDigits digit? rest
      (d :: ds, left))

/-- The number with the given decimal digits. -/
def digitsValue (ds : List Nat) : Nat := ds.foldl (fun n d => 10 * n + d) 0

/-- Reads an optional sign: whether it is a minus, and the rest. -/
def readSign : List Char → Bool × List Char
  | '-' :: rest => (true, rest)
  | '+' :: rest => (false, rest)
  | cs => (false, cs)

/-- Reads an exponent that fills the text; the empty text counts as zero. -/
def readExponent (digit? : Char → Option Nat) : List Char → Option Int
  | [] => some 0
  | c :: rest =>
    if c = 'e' ∨ c = 'E' then
      let (negative, rest) := readSign rest
      match readDigits digit? rest with
      | some (ds, []) =>
        let n : Int := digitsValue ds
        some (if negative then -n else n)
      | _ => none
    else none

/-- The double that an unsigned decimal denotes: digits, a point, or both, and an exponent. -/
def readUnsigned? (digit? : Char → Option Nat) (negative : Bool) (cs : List Char) : Option Float :=
  let (whole, rest) := (readDigits digit? cs).getD ([], cs)
  let (fraction, rest) :=
    match rest with
    | '.' :: rest => (readDigits digit? rest).getD ([], rest)
    | _ => ([], rest)
  if whole.isEmpty && fraction.isEmpty then none
  else
    (readExponent digit? rest).map (fun e =>
      ofParts negative (digitsValue (whole ++ fraction)) (e - fraction.length))

/-- The double that a text denotes: a decimal, an infinity or not a number, with white space around
it. Digits of every script count. -/
def read? (s : String) : Option Float :=
  let (negative, cs) := readSign (Text.trimSpace s.toList)
  let word := Text.lowerAscii (String.ofList cs)
  if word = "inf" ∨ word = "infinity" then some (if negative then -(1.0 / 0.0) else 1.0 / 0.0)
  else if word = "nan" then some (0.0 / 0.0)
  else readUnsigned? Text.digitValue? negative cs

end Sentential.Decimal
