import Sentential.Datum.Basic
import Sentential.Decimal.Layout
import Sentential.Text.Quoted

/-!
# Data in messages

A datum as it is shown in a message: texts in quotes, lists in square brackets, maps in braces.

## Main definitions

* `Datum.shown` — the form of a value inside a message
* `Datum.plain` — the same, except that a text on its own stands without quotes
-/

namespace Sentential.Datum

mutual

/-- The form of a value inside a message. -/
def shown : Datum → String
  | null => "None"
  | bool true => "True"
  | bool false => "False"
  | int i => toString i
  | float x => Decimal.Layout.shown.render x
  | text s => Text.quoted s
  | codes points => Text.quotedCodes points
  | list items => "[" ++ ", ".intercalate (shownItems items) ++ "]"
  | map entries => "\x7b" ++ ", ".intercalate (shownEntries entries) ++ "\x7d"

/-- The forms of the members of a list. -/
def shownItems : List Datum → List String
  | [] => []
  | d :: rest => shown d :: shownItems rest

/-- The forms of the entries of a map. -/
def shownEntries : List (Datum × Datum) → List String
  | [] => []
  | (k, v) :: rest => (shown k ++ ": " ++ shown v) :: shownEntries rest

end

/-- A text itself, and the form inside a message of every other value. What stands for no character
becomes the replacement character. -/
def plain : Datum → String
  | text s => s
  | codes points =>
    String.ofList (points.map (fun n => if n.isValidChar then Char.ofNat n else '\ufffd'))
  | d => d.shown

end Sentential.Datum
