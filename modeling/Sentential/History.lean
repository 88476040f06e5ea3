import Sentential.Datum.Printer
import Sentential.Json.Parser
import Sentential.Json.Printer
import Sentential.Text.Blank
import Sentential.Text.Lines

/-!
# History

A log of analysed formulas: one JSON object on a line for each. A line is written whole and never
changed, so what was appended is what is read, in the same order. Lines that hold only blanks are
skipped when the log is read.

## Main definitions

* `History.Entry` — an analysed formula as it is remembered
* `History.Entry.ofDatum`, `History.Entry.toDatum` — entries as data
* `History.Log` — the text of a log
* `History.Log.append`, `History.Log.read` — adding an entry, reading all
* `History.Writer`, `History.Writer.after` — an object that writes a log, and what is done with it
-/

namespace Sentential.History

/-- An analysed formula as it is remembered. -/
structure Entry where
  /-- The formula text. -/
  expression : String
  /-- The declared variables. -/
  vars : List Datum
  /-- The classification, if there is one. -/
  classification : Datum
  /-- The time of the analysis, in seconds. -/
  timestamp : Float
  /-- The identifier of the entry. -/
  id : String

/-- Why a datum is no entry. -/
inductive Fault where
  /-- It is not written as JSON. -/
  | notJson
  /-- A number in it cannot be taken, because it has too many digits. -/
  | numberTooLong
  /-- It has no fields. -/
  | notObject
  /-- The formula is missing. -/
  | noExpression
  /-- The variables are nothing that has members. -/
  | noVariableList
  /-- The time is neither a number nor a text. -/
  | noTime
  /-- The time is a text that denotes no number. -/
  | malformedTime
  /-- The time is a number beyond all doubles. -/
  | timeOutOfRange
deriving DecidableEq, Repr

namespace Entry

/-- The members of a datum: of a list, its items; of a text, its characters; of a map, its keys. -/
def members : Datum → Except Fault (List Datum)
  | .list items => .ok items
  | .text s => .ok (s.toList.map (fun c => .text c.toString))
  | .codes points => .ok (points.map (fun n => .ofCodes [n]))
  | .map entries => .ok (entries.map Prod.fst)
  | _ => .error .noVariableList

/-- The time that a datum denotes. -/
def time : Datum → Except Fault Float
  | .bool b => .ok (if b then 1.0 else 0.0)
  | .int i =>
    let x := Decimal.ofInt i
    if x.isInf then .error .timeOutOfRange else .ok x
  | .float x => .ok x
  | .text s =>
    match Decimal.read? s with
    | some x => .ok x
    | none => .error .malformedTime
  | .codes _ => .error .malformedTime
  | _ => .error .noTime

/-- The entry that an object holds. Only the formula must be there. -/
def ofDatum (d : Datum) : Except Fault Entry :=
  match d with
  | .map _ =>
    match d.get? "expression" with
    | none => .error .noExpression
    | some expression =>
      -- The variables are looked at before the time, and the first fault is reported.
      match members ((d.get? "variables").getD (.list [])),
          time ((d.get? "timestamp").getD (.float 0.0)) with
      | .error fault, _ => .error fault
      | .ok _, .error fault => .error fault
      | .ok vars, .ok timestamp =>
        .ok {
          expression := expression.plain
          vars
          classification := (d.get? "classification").getD .null
          timestamp
          id := ((d.get? "id").map Datum.plain).getD "" }
  | _ => .error .notObject

/-- An entry as an object. -/
def toDatum (e : Entry) : Datum :=
  .object [
    ("expression", .text e.expression), ("variables", .list e.vars),
    ("classification", e.classification), ("timestamp", .float e.timestamp), ("id", .text e.id)]

/-- The line of a log that holds an entry. -/
def line (e : Entry) : String := Json.render .compact e.toDatum ++ "\n"

/-- The entry on a line of a log. -/
def ofLine (s : String) : Except Fault Entry :=
  match Json.parse s with
  | .error .malformed => .error .notJson
  | .error (.value _) => .error .numberTooLong
  | .ok d => ofDatum d

/-- The entry for an analysed formula. -/
def record (expression : String) (vars : List String) (classification : Option String)
    (timestamp : Float) (id : String) : Entry :=
  { expression, vars := vars.map .text
    classification := .ofOption .text classification, timestamp, id }

end Entry

/-- A log: its text, or nothing as long as nothing was written. -/
structure Log where
  /-- The text. -/
  text : Option String
deriving DecidableEq, Repr

namespace Log

/-- The log before anything is written. -/
def empty : Log := ⟨none⟩

/-- The log with a text behind it. -/
def write (l : Log) (s : String) : Log := ⟨some (l.text.getD "" ++ s)⟩

/-- The log with an entry behind it. -/
def append (l : Log) (e : Entry) : Log := l.write e.line

/-- The lines that hold more than blanks, without the blanks around them. -/
def contentLines (s : String) : List String :=
  ((Text.lines (Text.unifyLineEnds s.toList)).map Text.trimChars).filterMap (fun cs =>
    if cs.isEmpty then none else some (String.ofList cs))

/-- All entries, oldest first. -/
def read (l : Log) : Except Fault (List Entry) :=
  (contentLines (l.text.getD "")).mapM Entry.ofLine

end Log

/-- What is done with an object that writes a log. -/
inductive Action where
  /-- An entry is written. -/
  | append (e : Entry)
  /-- An entry for an analysed formula is made and written. -/
  | record (expression : String) (vars : List String) (classification : Option String)
    (timestamp : Float) (id : String)
  /-- The file is closed. -/
  | close
  /-- A new object for the same file takes over. -/
  | reopen

/-- The entry that an action writes. -/
def Action.entry? : Action → Option Entry
  | append e => some e
  | record expression vars classification timestamp id =>
    some (.record expression vars classification timestamp id)
  | close | reopen => none

/-- An object that writes a log: what stands in the file, and whether it holds the file open. -/
structure Writer where
  /-- The log in the file. -/
  log : Log
  /-- Whether the file is open. -/
  isOpen : Bool := false
deriving DecidableEq, Repr

namespace Writer

/-- The object with the file open. Opening makes a file where there is none and keeps what is in it.
-/
def opened (w : Writer) : Writer := if w.isOpen then w else ⟨w.log.write "", true⟩

/-- The object after writing an entry; the file is opened before if it is not open. -/
def append (w : Writer) (e : Entry) : Writer := ⟨w.opened.log.append e, w.opened.isOpen⟩

/-- The object after an action. A new object begins with the file closed, as one that was closed
goes on. -/
def after (w : Writer) (a : Action) : Writer :=
  match a.entry? with
  | some e => w.append e
  | none => ⟨w.log, false⟩

end Writer

end Sentential.History
