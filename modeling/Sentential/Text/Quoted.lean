import Sentential.Text.PrintableTable

/-!
# Quoted text

A text as it is shown inside a message: between quotes, with everything that would not be seen
written as an escape. Single quotes are used unless the text holds a single quote and no double one.

## Main definitions

* `Text.isHidden` — the characters that are escaped because they cannot be seen
* `Text.quoted`, `Text.quotedCodes` — the quoted form of a text
-/

namespace Sentential.Text

/-- Whether a character has no visible form of its own. -/
def isHidden (c : Char) : Bool :=
  if c.toNat < 0x7F then c.toNat < 0x20
  else hiddenRanges.any (fun r => r.1 ≤ c.toNat && c.toNat ≤ r.2)

/-- A number in lower-case hexadecimal, with zeros in front up to the given width. -/
def hex (width n : Nat) : String :=
  let digits := Nat.toDigits 16 n
  String.ofList (List.replicate (width - digits.length) '0' ++ digits)

/-- The escape of a code point: two, four or eight hexadecimal digits. -/
def codePointEscape (n : Nat) : String :=
  if n < 0x100 then "\\x" ++ hex 2 n
  else if n < 0x10000 then "\\u" ++ hex 4 n
  else "\\U" ++ hex 8 n

/-- The mark that encloses the quoted form of a text. -/
def quoteMark (s : String) : Char :=
  if s.contains '\x27' && !s.contains '"' then '"' else '\x27'

/-- One character as it stands between two quote marks. -/
def quotedChar (mark c : Char) : String :=
  if c = mark ∨ c = '\\' then String.ofList ['\\', c]
  else if c = '\n' then "\\n"
  else if c = '\t' then "\\t"
  else if c = '\r' then "\\r"
  else if isHidden c then codePointEscape c.toNat
  else String.singleton c

/-- A text between quotes. -/
def quoted (s : String) : String :=
  let mark := quoteMark s
  String.singleton mark ++ String.join (s.toList.map (quotedChar mark)) ++ String.singleton mark

/-- A text between quotes, some of whose code points may stand for no character. -/
def quotedCodes (points : List Nat) : String :=
  let mark := quoteMark (String.ofList (points.map Char.ofNat))
  let form (n : Nat) : String :=
    if n.isValidChar then quotedChar mark (Char.ofNat n) else codePointEscape n
  String.singleton mark ++ String.join (points.map form) ++ String.singleton mark

end Sentential.Text
