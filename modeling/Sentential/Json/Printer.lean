import Sentential.Datum.Basic
import Sentential.Decimal.Layout
import Sentential.Text.Quoted

/-!
# Writing JSON

Data as JSON text, with characters outside ASCII written literally. A style fixes the separators and
whether every member stands on a line of its own.

## Main definitions

* `Json.Style` — separators and indentation
* `Json.stringChars` — a text as a JSON string
* `Json.render` — a datum as JSON text
-/

namespace Sentential.Json

/-- The layout of JSON text. -/
structure Style where
  /-- What separates two members. -/
  separator : List Char
  /-- What separates a name and its value. -/
  colon : List Char
  /-- The indentation of a member on its own line; without it everything is on one line. -/
  indent : Option Nat

/-- One line without blanks. -/
def Style.compact : Style := ⟨[','], [':'], none⟩

/-- One line with a blank after each separator. -/
def Style.spaced : Style := ⟨[',', ' '], [':', ' '], none⟩

/-- A line for each member, indented by two. -/
def Style.indented : Style := ⟨[','], [':', ' '], some 2⟩

/-- The start of a new line at a level, if the style has lines. -/
def Style.newline (style : Style) (level : Nat) : List Char :=
  match style.indent with
  | none => []
  | some width => '\n' :: List.replicate (width * level) ' '

/-- The hexadecimal digit of a number below sixteen. -/
def hexDigit (n : Nat) : Char := if n < 10 then Char.ofNat (48 + n) else Char.ofNat (87 + n)

/-- One character inside a JSON string: the quote, the backslash and control characters are escaped.
-/
def escapeChar (c : Char) : List Char :=
  if c = '"' then ['\\', '"']
  else if c = '\\' then ['\\', '\\']
  else if c = '\n' then ['\\', 'n']
  else if c = '\r' then ['\\', 'r']
  else if c = '\t' then ['\\', 't']
  else if c = '\x08' then ['\\', 'b']
  else if c = '\x0c' then ['\\', 'f']
  else if c.toNat < 0x20 then
    ['\\', 'u', '0', '0', hexDigit (c.toNat / 16), hexDigit (c.toNat % 16)]
  else [c]

/-- A text as a JSON string. -/
def stringChars (s : String) : List Char := '"' :: (s.toList.flatMap escapeChar ++ ['"'])

/-- One code point inside a JSON string: one that stands for no character is escaped. -/
def escapeCode (n : Nat) : List Char :=
  if n.isValidChar then escapeChar (Char.ofNat n)
  else '\\' :: 'u' :: (Text.hex 4 n).toList

/-- A name inside an object: a text itself, another scalar by its JSON form. -/
def nameText : Datum → String
  | .text s => s
  | .null => "null"
  | .bool true => "true"
  | .bool false => "false"
  | .int i => toString i
  | .float x => Decimal.Layout.document.render x
  | .codes _ => ""
  | .list _ => ""
  | .map _ => ""

mutual

/-- The characters of a datum as JSON text, standing at a level of indentation. -/
def chars (style : Style) (level : Nat) : Datum → List Char
  | .null => ['n', 'u', 'l', 'l']
  | .bool true => ['t', 'r', 'u', 'e']
  | .bool false => ['f', 'a', 'l', 's', 'e']
  | .int i => (toString i).toList
  | .float x => (Decimal.Layout.document.render x).toList
  | .text s => stringChars s
  | .codes points => '"' :: (points.flatMap escapeCode ++ ['"'])
  | .list [] => ['[', ']']
  | .list (d :: rest) =>
    '[' :: (style.newline (level + 1) ++ chars style (level + 1) d
      ++ itemsChars style (level + 1) rest ++ style.newline level ++ [']'])
  | .map [] => ['\x7b', '\x7d']
  | .map ((k, v) :: rest) =>
    '\x7b' :: (style.newline (level + 1) ++ stringChars (nameText k) ++ style.colon
      ++ chars style (level + 1) v ++ entriesChars style (level + 1) rest
      ++ style.newline level ++ ['\x7d'])

/-- The members of a list after the first. -/
def itemsChars (style : Style) (level : Nat) : List Datum → List Char
  | [] => []
  | d :: rest =>
    style.separator ++ style.newline level ++ chars style level d ++ itemsChars style level rest

/-- The entries of an object after the first. -/
def entriesChars (style : Style) (level : Nat) : List (Datum × Datum) → List Char
  | [] => []
  | (k, v) :: rest =>
    style.separator ++ style.newline level ++ stringChars (nameText k) ++ style.colon
      ++ chars style level v ++ entriesChars style level rest

end

/-- A datum as JSON text. -/
def render (style : Style) (d : Datum) : String := String.ofList (chars style 0 d)

end Sentential.Json
