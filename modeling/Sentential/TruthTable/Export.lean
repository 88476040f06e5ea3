import Sentential.TruthTable.Basic

/-!
# Written tables

A table as comma-separated values, as Markdown and as LaTeX. In the first a field is quoted when it
holds a separator, a quote, a line feed or a carriage return, and a line that consists of one empty
field is written as two quotes; the other two formats write their fields as they are.

## Main definitions

* `TableFormat` — the formats
* `TruthTable.header`, `TruthTable.cells` — the texts of a table
* `TruthTable.render` — a table in a format
-/

namespace Sentential

/-- A format for written tables. -/
inductive TableFormat where
  | csv
  | markdown
  | latex
deriving DecidableEq, Repr, Inhabited

namespace TableFormat

/-- The formats. -/
def all : List TableFormat := [csv, markdown, latex]

/-- The name of a format. -/
def name : TableFormat → String
  | csv => "csv"
  | markdown => "markdown"
  | latex => "latex"

/-- The format with a name. -/
def ofName? (s : String) : Option TableFormat := all.find? (fun f => f.name == s)

/-- The message about a name that no format has, given as a message shows it. -/
def unknownMessage (shown : String) : String :=
  "Unknown table format " ++ shown ++ "; expected one of " ++ ", ".intercalate (all.map name)

end TableFormat

namespace TruthTable

/-- The labels of the columns. -/
def header (columns : List Column) : List String := columns.map Column.label

/-- The texts of the cells, row by row; a missing cell is empty. -/
def cells (rows : List Row) (columns : List Column) (style : TruthStyle) : List (List String) :=
  rows.map (fun r => columns.map (fun c => style.sign (r.values.get? c.key)))

/-- Whether a field must be quoted. -/
def needsQuotes (s : String) : Bool :=
  s.toList.any (fun c => c == ',' || c == '"' || c == '\n' || c == '\r')

/-- A quote inside a field is written twice. -/
def doubleQuotes : List Char → List Char
  | [] => []
  | c :: rest => if c = '"' then '"' :: '"' :: doubleQuotes rest else c :: doubleQuotes rest

/-- A field of comma-separated values. -/
def csvField (s : String) : String :=
  if needsQuotes s then String.ofList ('"' :: (doubleQuotes s.toList ++ ['"'])) else s

/-- A line of comma-separated values. -/
def csvLine : List String → String
  -- An empty line would be no record at all.
  | [""] => "\"\""
  | fields => ",".intercalate (fields.map csvField)

/-- A text without the line feeds at its end. -/
def dropFinalNewlines (s : String) : String :=
  String.ofList (s.toList.reverse.dropWhile (· == '\n')).reverse

/-- A table as comma-separated values. -/
def csv (header : List String) (cells : List (List String)) : String :=
  dropFinalNewlines (String.join ((header :: cells).map (fun l => csvLine l ++ "\n")))

/-- A line of a Markdown table. -/
def markdownLine (fields : List String) : String := "| " ++ " | ".intercalate fields ++ " |"

/-- A table in Markdown. -/
def markdown (header : List String) (cells : List (List String)) : String :=
  "\n".intercalate
    (markdownLine header :: markdownLine (header.map (fun _ => "---")) :: cells.map markdownLine)

/-- A line of a LaTeX table. -/
def latexLine (fields : List String) : String := " & ".intercalate fields ++ " \\\\"

/-- A table in LaTeX. -/
def latex (header : List String) (cells : List (List String)) : String :=
  let spec := "|" ++ "|".intercalate (header.map (fun _ => "c")) ++ "|"
  "\n".intercalate
    (["\\begin\x7btabular\x7d\x7b" ++ spec ++ "\x7d", "\\hline", latexLine header, "\\hline"] ++
      cells.map latexLine ++ ["\\hline", "\\end\x7btabular\x7d"])

/-- A table in a format. -/
def render (format : TableFormat) (style : TruthStyle) (rows : List Row) (columns : List Column) :
    String :=
  match format with
  | .csv => csv (header columns) (cells rows columns style)
  | .markdown => markdown (header columns) (cells rows columns style)
  | .latex => latex (header columns) (cells rows columns style)

end TruthTable

end Sentential
