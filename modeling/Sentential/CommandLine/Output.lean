import Sentential.Analysis
import Sentential.Datum.Basic
import Sentential.TruthTable.Export

/-!
# Answers of the program

Analyses, proofs and Karnaugh maps as the lines and the documents that the program prints.

## Main definitions

* `Output.analysisLines`, `Output.analysisDatum` — an analysis
* `Output.reportLines`, `Output.reportDatum` — a proof attempt
* `Output.karnaughLines` — a Karnaugh map
-/

namespace Sentential.CommandLine.Output

/-- A text with blanks in front, up to a width. -/
def padLeft (width : Nat) (s : String) : String :=
  String.ofList (List.replicate (width - s.length) ' ') ++ s

/-- Some numbers in square brackets. -/
def numberList (l : List Int) : String := "[" ++ ", ".intercalate (l.map toString) ++ "]"

/-- The lines of a Karnaugh map: the grid, its groups and their sum. -/
def karnaughLines (m : Karnaugh.Map) (style : TruthStyle) : List String :=
  let corner := String.join m.rowVariables ++ "\\" ++ String.join m.columnVariables
  let head := " ".intercalate (padLeft 6 corner :: m.columnLabels.map (padLeft 3))
  let rows := (m.rowLabels.zip m.values.toRows).map (fun r =>
    " ".intercalate (padLeft 6 r.1 :: r.2.map (fun b => padLeft 3 (style.sign (some b)))))
  let groups := m.groups.map (fun g => "  group m" ++ numberList g.minterms ++ ": " ++ g.term)
  head :: rows ++ groups ++ ["Minimized: " ++ m.minimized]

/-- The indentation of a level. -/
def indentation (level : Nat) : String := String.ofList (List.replicate (2 * level) ' ')

/-- The name of a branch: its case, or that it is the root. -/
def branchName (label : String) : String := if label = "" then "root" else label

mutual

/-- The lines of a proof tree. -/
def branchLines (level : Nat) (b : Branch) : List String :=
  match b with
  | ⟨label, _, steps, status, _, children⟩ =>
    (indentation level ++ "[" ++ status.name ++ "] " ++ branchName label) ::
      steps.map (fun s => indentation level ++ "  - " ++ s.description) ++
      branchesLines (level + 1) children

/-- The lines of some proof trees. -/
def branchesLines (level : Nat) : List Branch → List String
  | [] => []
  | b :: rest => branchLines level b ++ branchesLines level rest

end

/-- The line of a counter-example that binds a variable. -/
def counterExampleLines (r : Report) : List String :=
  match r.counterExample with
  | some m =>
    if m.isEmpty then []
    else
      ["Counter-example: " ++ ", ".intercalate
        (m.entries.map (fun e => e.1 ++ "=" ++ if e.2 then "1" else "0"))]
  | none => []

/-- The lines of a proof attempt. -/
def reportLines (r : Report) : List String :=
  [r.title ++ ": " ++ r.result, r.summary] ++ branchLines 0 r.root ++ counterExampleLines r

/-- An assignment as an object. -/
def assignmentDatum (m : OrderedMap String Bool) : Datum :=
  .object (m.entries.map (fun e => (e.1, .bool e.2)))

/-- A proof attempt as an object. -/
def reportDatum (r : Report) : Datum :=
  .object [
    ("target", .text r.target.name), ("title", .text r.title), ("result", .text r.result),
    ("summary", .text r.summary), ("counter_example", .ofOption assignmentDatum r.counterExample),
    ("forced_variables", .texts r.forced),
    ("witnesses",
      match r.witnesses with
      | none => .object []
      | some w =>
        .object [("false", assignmentDatum w.falsifying), ("true", assignmentDatum w.satisfying)])]

/-- A row as an object from labels to cells. Columns of one label share the first place, and the
last of them gives the cell. -/
def rowDatum (columns : List Column) (r : Row) : Datum :=
  let cells : OrderedMap String Datum :=
    .ofList (columns.map (fun c => (c.label, .ofOption .bool (r.values.get? c.key))))
  .object [("index", .int r.index), ("values", .object cells.entries)]

/-- The entries for the forms of an implication. -/
def formsFields (f : Forms) : List (String × Datum) :=
  [("implication_forms", .object [
    ("original", .text f.direct), ("converse", .text f.converse), ("inverse", .text f.inverse),
    ("contrapositive", .text f.contrapositive)])]

/-- The entries for a Karnaugh map. -/
def karnaughFields (m : Karnaugh.Map) : List (String × Datum) :=
  [("kmap", .object [
    ("minimized_expression", .text m.minimized),
    ("groups", .list (m.groups.map (fun g =>
      .object [("minterms", .list (g.minterms.map .int)), ("term", .text g.term)])))])]

/-- The entries for a shortcut. -/
def shortcutFields (s : Shortcut) : List (String × Datum) :=
  [("shortcut", .object [("rule", .text s.rule), ("explanation", .text s.explanation)])]

/-- The score of a complexity as a number. -/
def scoreDatum (c : Complexity) : Datum := .float (Decimal.ofParts false (5 * c.doubledScore) (-1))

/-- What an optional part adds. -/
def optional {α β : Type} (f : α → List β) (x : Option α) : List β := (x.map f).getD []

/-- An analysis as an object. -/
def analysisDatum (a : Analysis) : Datum :=
  .object (
    [("expression", .text a.expr.text), ("variables", .texts a.vars),
      ("classification", .text a.table.classification.name),
      ("main_connective", .text a.expr.shape.mainConnective),
      ("columns", .texts (a.table.columns.map Column.label)),
      ("rows", .list (a.table.rows.map (rowDatum a.table.columns)))] ++
    optional formsFields a.forms ++ optional karnaughFields a.karnaugh ++
    optional shortcutFields a.shortcut ++ [("complexity_score", scoreDatum a.complexity)] ++
    optional (fun r => [("tableau", reportDatum r)]) a.report)

/-- The first line of an analysis. -/
def expressionLine (a : Analysis) : String := "Expression: " ++ a.expr.text

/-- The lines of an analysis. -/
def analysisLines (a : Analysis) (format : TableFormat) (style : TruthStyle) : List String :=
  [expressionLine a, TruthTable.render format style a.table.rows a.table.columns,
    "Classification: " ++ a.table.classification.name] ++
  optional (fun (s : Shortcut) => ["Shortcut: " ++ s.rule ++ " - " ++ s.explanation]) a.shortcut ++
  optional (fun (f : Forms) =>
    ["Converse: " ++ f.converse, "Inverse: " ++ f.inverse,
      "Contrapositive: " ++ f.contrapositive]) a.forms ++
  optional (fun (m : Karnaugh.Map) => ["K-Map minimized: " ++ m.minimized]) a.karnaugh ++
  optional reportLines a.report

end Sentential.CommandLine.Output
