import Sentential.Datum.Printer
import Sentential.Label
import Sentential.Text.Blank
import Sentential.Text.Upper

/-!
# Settings

The choices that change how results are shown: the negations of labels, the signs of truth values,
the order of rows, and whether subformulas get columns.

## Main definitions

* `TruthStyle`, `RowOrder`, `Settings` — the choices
* `Settings.Fault` — why a settings document is refused
* `Settings.ofDatum` — the settings that a document asks for
* `Settings.toDatum` — a document that asks for given settings
-/

namespace Sentential

/-- The signs of the truth values. -/
inductive TruthStyle where
  /-- Digits. -/
  | binary
  /-- Letters. -/
  | letters
deriving DecidableEq, Repr, Inhabited

namespace TruthStyle

/-- The styles. -/
def all : List TruthStyle := [binary, letters]

/-- The name of a style. -/
def name : TruthStyle → String
  | binary => "0/1"
  | letters => "F/T"

/-- The style with a name. -/
def ofName? (s : String) : Option TruthStyle := all.find? (fun t => t.name == s)

/-- The sign of a truth value; an unknown one is left empty. -/
def sign : TruthStyle → Option Bool → String
  | _, none => ""
  | binary, some true => "1"
  | binary, some false => "0"
  | letters, some true => "T"
  | letters, some false => "F"

end TruthStyle

/-- The order of the rows of a table. -/
inductive RowOrder where
  | ascending
  | descending
deriving DecidableEq, Repr, Inhabited

namespace RowOrder

/-- The orders. -/
def all : List RowOrder := [ascending, descending]

/-- The name of an order. -/
def name : RowOrder → String
  | ascending => "0→1"
  | descending => "1→0"

/-- The word for an order. -/
def word : RowOrder → String
  | ascending => "ascending"
  | descending => "descending"

/-- A text with every ASCII arrow replaced by the arrow sign. -/
def replaceArrows : List Char → List Char
  | [] => []
  | '-' :: '>' :: rest => '→' :: replaceArrows rest
  | c :: rest => c :: replaceArrows rest

/-- The order with a name or a word; the arrow may be ASCII, and the case of a word is free. -/
def ofText? (s : String) : Option RowOrder :=
  let s := String.ofList (replaceArrows (Text.trimChars s.toList))
  all.find? (fun o => o.name == s || o.word == Text.lowerAscii s)

end RowOrder

/-- The choices that change how results are shown. -/
structure Settings where
  /-- What is done to the negations of labels. -/
  negation : NegationMode := .preserve
  /-- The signs of the truth values. -/
  truth : TruthStyle := .binary
  /-- The order of rows. -/
  order : RowOrder := .ascending
  /-- Whether every subformula gets a column. -/
  subformulas : Bool := true
deriving DecidableEq, Repr, Inhabited

namespace Settings

/-- Why a settings document is refused. -/
inductive Fault where
  /-- The document is no map. -/
  | notMap
  /-- A section is no map. -/
  | sectionNotMap
  /-- A value is none of those allowed. -/
  | invalid (value : Datum) (key : String) (allowed : List String)
  /-- A value names no row order. -/
  | unknownOrder (value : Datum)
  /-- There is no such file. -/
  | missing (path : String)
  /-- The file is not written in the format of settings. -/
  | malformed (path : String)
  /-- A value cannot be taken from its written form, or be shown. -/
  | datum (fault : Datum.Fault)

/-- The wording of a fault. -/
def Fault.message : Fault → String
  | notMap => "Settings must be a mapping with 'logic' and 'table' sections"
  | sectionNotMap => "'logic' and 'table' sections must be mappings"
  | invalid value key allowed =>
    "Invalid value " ++ value.shown ++ " for " ++ key ++ "; expected one of: " ++
      ", ".intercalate allowed
  | unknownOrder value => "Unknown row order: " ++ value.shown
  | missing path => "Settings file not found at: " ++ path
  | malformed path => "Error parsing YAML file: " ++ path
  | datum fault => fault.message

/-- The fault of a value that is none of those allowed: it is shown, unless it is too long. -/
def Fault.showing (value : Datum) (fault : Fault) : Fault :=
  if value.isTooLong then .datum .tooLong else fault

/-- The section of a document: an absent or empty one is an empty map. -/
def sectionOf (name : String) (d : Datum) : Datum :=
  match d.get? name with
  | some s => if s.holds then s else .map []
  | none => .map []

/-- Whether a datum is a map. -/
def isMap : Datum → Bool
  | .map _ => true
  | _ => false

/-- The choice that an entry of a section makes, or the default if there is no entry. -/
def choose {α : Type} (ofName? : String → Option α) (allowed : List String) (default : α)
    (key : String) (entry : Option Datum) : Except Fault α :=
  match entry with
  | none => .ok default
  -- A value of another kind is compared by the text that shows it.
  | some d =>
    match ofName? d.plain with
    | some a => .ok a
    | none => .error (.showing d (.invalid d key allowed))

/-- The row order that a value names. -/
def orderOf (d : Datum) : Except Fault RowOrder :=
  match RowOrder.ofText? d.plain with
  | some o => .ok o
  | none => .error (.showing d (.unknownOrder d))

/-- The settings that a document asks for. What it leaves out keeps its default, and so does an
empty document. -/
def ofDatum (d : Datum) : Except Fault Settings := do
  match d with
  | .null => return {}
  | .map _ =>
    let logic := sectionOf "logic" d
    let table := sectionOf "table" d
    if !(isMap logic && isMap table) then throw .sectionNotMap
    let negation ← choose NegationMode.ofName? (NegationMode.all.map NegationMode.name) .preserve
      "logic.negation_handling" (logic.get? "negation_handling")
    let truth ← choose TruthStyle.ofName? (TruthStyle.all.map TruthStyle.name) .binary
      "logic.truth_values" (logic.get? "truth_values")
    let order ←
      match logic.get? "row_order" with
      | none => pure RowOrder.ascending
      | some v => orderOf v
    let subformulas := ((table.get? "show_sub_expressions").map Datum.holds).getD true
    return { negation, truth, order, subformulas }
  | _ => throw .notMap

/-- A document that asks for the given settings. -/
def toDatum (s : Settings) : Datum :=
  .object [
    ("logic", .object [
      ("negation_handling", .text s.negation.name),
      ("truth_values", .text s.truth.name),
      ("row_order", .text s.order.name)]),
    ("table", .object [("show_sub_expressions", .bool s.subformulas)])]

end Settings

end Sentential
