import Mathlib.Data.List.DropRight
import Sentential.Proofs.Label.NormalForm
import Sentential.Proofs.Table.Csv
import Sentential.Proofs.Table.Rows

/-!
# Written tables are read back

Markdown and LaTeX lines are written without any escape: a reader cuts a text at its line feeds and
a line at its separators. That gives the fields back as long as none of them has a vertical bar, an
ampersand or a line feed. No label of a table over names has one, whatever the mode, because a mode
only drops characters and a text consists of names, signs, brackets and blanks.

## Main definitions

* `Delimited.pieces`, `Delimited.fieldsOf?` — the reader of a line
* `Delimited.Plain` — no character that could divide fields or lines
* `TruthTable.readMarkdown`, `TruthTable.readLatex` — the readers of tables

## Main results

* `Delimited.fieldsOf?_line` — a line is read as its fields, if none has the sign of the separator
* `Delimited.plain_apply` — the label of an expression over names is plain, under every mode
* `TruthTable.render_read_back` — a table is read back from each of its formats
-/

namespace Sentential

open Token (spellsName)

namespace Delimited

/-- What stands between the occurrences of a separator, the first being cut first. The number counts
the characters that are still to be passed over. -/
def pieces (sep : List Char) : Nat → List Char → List (List Char)
  | _, [] => [[]]
  | n + 1, _ :: rest => pieces sep n rest
  | 0, c :: rest =>
    if sep.isPrefixOf (c :: rest) then [] :: pieces sep (sep.length - 1) rest
    else (pieces sep 0 rest).modifyHead (c :: ·)

/-- The fields of a line that begins and ends with given characters. -/
def fieldsOf? (before sep after line : List Char) : Option (List String) := do
  let started ← line.dropPrefix? before
  let inner ← started.dropSuffix? after
  return (pieces sep 0 inner).map String.ofList

/-- The lines of a text. -/
def linesOf (s : String) : List (List Char) := s.toList.splitOn '\n'

variable {cs ds sep before after rest : List Char} {c d : Char}

/-! ### Lines of fields -/

theorem pieces_append (other : d ≠ ' ') (absent : d ∉ cs) (rest : List Char) :
    pieces [' ', d, ' '] 0 (cs ++ ' ' :: d :: ' ' :: rest) = cs :: pieces [' ', d, ' '] 0 rest := by
  induction cs with
  | nil => simp [pieces]
  | cons c cs ih =>
    rw [List.mem_cons, not_or] at absent
    -- The sign of a separator that began here would stand in the field, or be its blank.
    have apart : ¬ [' ', d, ' '] <+: c :: (cs ++ ' ' :: d :: ' ' :: rest) := by
      rw [List.cons_prefix_cons]
      rintro ⟨-, sign⟩
      cases cs with
      | nil => exact other (List.cons_prefix_cons.mp sign).1
      | cons x cs => exact absent.2 (by simp [(List.cons_prefix_cons.mp sign).1])
    rw [List.cons_append, pieces, if_neg (by rwa [List.isPrefixOf_iff_prefix]), ih absent.2]
    rfl

theorem pieces_eq_singleton (absent : d ∉ cs) : pieces [' ', d, ' '] 0 cs = [cs] := by
  induction cs with
  | nil => rfl
  | cons c cs ih =>
    have apart : ¬ [' ', d, ' '] <+: c :: cs := fun cut => absent (cut.subset (by simp))
    rw [pieces, if_neg (by rwa [List.isPrefixOf_iff_prefix]),
      ih fun mem => absent (List.mem_cons_of_mem c mem)]
    rfl

/-- Fields without the sign of the separator are cut where they were joined. -/
theorem pieces_intercalate {fields : List (List Char)} (other : d ≠ ' ') (filled : fields ≠ [])
    (absent : ∀ field ∈ fields, d ∉ field) :
    pieces [' ', d, ' '] 0 ([' ', d, ' '].intercalate fields) = fields := by
  induction fields, filled using List.recNeNil with
  | singleton field =>
    rw [List.intercalate_singleton, pieces_eq_singleton (absent field (List.mem_singleton_self _))]
  | cons field others more ih =>
    obtain ⟨first, absent⟩ := List.forall_mem_cons.mp absent
    have joined : field ++ [' ', d, ' '] ++ [' ', d, ' '].intercalate others =
        field ++ ' ' :: d :: ' ' :: [' ', d, ' '].intercalate others := by simp
    rw [List.intercalate_cons_of_ne_nil more, joined, pieces_append other first, ih absent]

theorem fieldsOf?_append (before sep inner after : List Char) :
    fieldsOf? before sep after (before ++ (inner ++ after)) =
      some ((pieces sep 0 inner).map String.ofList) := by
  have started : (before ++ (inner ++ after)).dropPrefix? before = some (inner ++ after) :=
    List.dropPrefix?_eq_some_iff.mpr ⟨before, rfl, by simp⟩
  have ended : (inner ++ after).dropSuffix? after = some inner :=
    List.dropSuffix?_eq_some_iff.mpr ⟨after, rfl, by simp⟩
  simp [fieldsOf?, started, ended]

/-- A line of fields with a sign between blanks from one to the next. -/
def line (before : List Char) (d : Char) (after : List Char) (fields : List String) : List Char :=
  before ++ ([' ', d, ' '].intercalate (fields.map String.toList) ++ after)

/-- A line of fields without the sign of its separator is read as them. -/
theorem fieldsOf?_line {fields : List String} (other : d ≠ ' ') (filled : fields ≠ [])
    (absent : ∀ s ∈ fields, d ∉ s.toList) (before after : List Char) :
    fieldsOf? before [' ', d, ' '] after (line before d after fields) = some fields := by
  rw [line, fieldsOf?_append, pieces_intercalate other (by simpa using filled)
    (List.forall_mem_map.mpr absent)]
  simp [Function.comp_def]

theorem notMem_intercalate {fields : List (List Char)} (joint : c ∉ sep)
    (absent : ∀ field ∈ fields, c ∉ field) : c ∉ sep.intercalate fields := by
  induction fields with
  | nil => simp
  | cons field others ih =>
    obtain ⟨first, absent⟩ := List.forall_mem_cons.mp absent
    by_cases only : others = []
    · subst only
      rwa [List.intercalate_singleton]
    · rw [List.intercalate_cons_of_ne_nil only]
      simp [first, joint, ih absent]

theorem notMem_line {fields : List String} (start : c ∉ before) (sign : c ∉ [' ', d, ' '])
    (stop : c ∉ after) (absent : ∀ s ∈ fields, c ∉ s.toList) :
    c ∉ line before d after fields := by
  have joined : c ∉ [' ', d, ' '].intercalate (fields.map String.toList) :=
    notMem_intercalate sign (List.forall_mem_map.mpr absent)
  simp only [line, List.mem_append, not_or]
  exact ⟨start, joined, stop⟩

/-- A text of lines without line feeds has them as its lines. -/
theorem linesOf_intercalate {lines : List String} (filled : lines ≠ [])
    (unbroken : ∀ line ∈ lines, '\n' ∉ line.toList) :
    linesOf ("\n".intercalate lines) = lines.map String.toList := by
  rw [linesOf, String.toList_intercalate]
  exact List.splitOn_intercalate '\n' (List.forall_mem_map.mpr unbroken) (by simpa using filled)

/-! ### Plain texts -/

/-- No character that could divide fields or lines. -/
def Plain (cs : List Char) : Prop := ∀ c ∈ cs, c ≠ '|' ∧ c ≠ '&' ∧ c ≠ '\n'

instance (cs : List Char) : Decidable (Plain cs) :=
  List.decidableBAll (fun c => c ≠ '|' ∧ c ≠ '&' ∧ c ≠ '\n') cs

theorem Plain.append (first : Plain cs) (second : Plain ds) : Plain (cs ++ ds) :=
  List.forall_mem_append.mpr ⟨first, second⟩

theorem Plain.subset (plain : Plain cs) (fewer : ds ⊆ cs) : Plain ds :=
  fun c mem => plain c (fewer mem)

theorem plain_name {name : String} (spelled : spellsName name = true) : Plain name.toList := by
  intro c mem
  have continues := Token.continuesName_of_spellsName spelled c mem
  refine ⟨?_, ?_, ?_⟩ <;> rintro rfl <;> exact absurd continues (by decide)

theorem plain_bracketedIf {s : String} (plain : Plain s.toList) (condition : Bool) :
    Plain (Formula.bracketedIf condition s).toList := by
  have opener : Plain ['('] := by decide
  have closer : Plain [')'] := by decide
  cases condition with
  | false => exact plain
  | true => simpa [Formula.bracketedIf] using (opener.append plain).append closer

theorem plain_enclose {s : String} (plain : Plain s.toList) (m : Mark) :
    Plain (m.enclose s).toList := by
  have repeated : ∀ {c : Char}, Plain [c] → Plain (List.replicate m.brackets.toNat c) :=
    fun alone _ mem => alone _ (by simp [List.eq_of_mem_replicate mem])
  rw [Mark.toList_enclose]
  exact ((repeated (by decide)).append plain).append (repeated (by decide))

/-- The text of an expression over names is plain. -/
theorem plain_text {e : Expr} (named : ∀ x ∈ e.shape.vars, spellsName x = true) :
    Plain e.text.toList := by
  induction e with
  | var m name =>
    exact plain_enclose (plain_name (named name (List.mem_singleton_self name))) m
  | const m value => exact plain_enclose (by cases value <;> decide) m
  | not m e ih =>
    have operand := plain_bracketedIf (ih named) e.isBare
    have sign : Plain negationSymbol.toList := by decide
    refine plain_enclose ?_ m
    rw [String.toList_append]
    exact sign.append operand
  | binary m op l r ihl ihr =>
    obtain ⟨namedLeft, namedRight⟩ := List.forall_mem_append.mp named
    have left := plain_bracketedIf (ihl namedLeft) l.isBare
    have right := plain_bracketedIf (ihr namedRight) r.isBare
    have sign : Plain op.symbol.toList := by cases op <;> decide
    have blank : Plain " ".toList := by decide
    refine plain_enclose ?_ m
    simp only [String.toList_append]
    exact (((left.append blank).append sign).append blank).append right

/-- The label of an expression over names is plain, under every mode. -/
theorem plain_apply {e : Expr} (named : ∀ x ∈ e.shape.vars, spellsName x = true)
    (mode : NegationMode) : Plain (mode.apply e.text).toList :=
  (plain_text named).subset (mode.apply_sublist e.text).subset

theorem plain_sign (style : TruthStyle) (cell : Option Bool) : Plain (style.sign cell).toList := by
  cases style <;> rcases cell with - | - | - <;> decide

end Delimited

namespace TruthTable

open Delimited (Plain fieldsOf? line linesOf)

/-! ### Tables of plain fields -/

/-- The header and the cells of a Markdown table; its second line is passed over. -/
def readMarkdown (s : String) : Option (List (List String)) :=
  match linesOf s with
  | first :: _ :: others =>
    (first :: others).mapM (fieldsOf? "| ".toList " | ".toList " |".toList)
  | _ => none

/-- The header and the cells of a LaTeX table: its third line, and those from the fifth on without
the last two. -/
def readLatex (s : String) : Option (List (List String)) :=
  match linesOf s with
  | _ :: _ :: first :: _ :: others =>
    (first :: others.rdrop 2).mapM (fieldsOf? [] " & ".toList " \\\\".toList)
  | _ => none

/-- A table whose lines all have fields, and plain ones. -/
structure PlainTable (records : List (List String)) : Prop where
  filled : ∀ fields ∈ records, fields ≠ []
  plain : ∀ fields ∈ records, ∀ s ∈ fields, Plain s.toList

section Lines

variable {fields header : List String} {cells : List (List String)}

theorem toList_markdownLine (fields : List String) :
    (markdownLine fields).toList = line "| ".toList '|' " |".toList fields := by
  rw [markdownLine, String.toList_append, String.toList_append, String.toList_intercalate,
    List.append_assoc]
  rfl

theorem toList_latexLine (fields : List String) :
    (latexLine fields).toList = line [] '&' " \\\\".toList fields := by
  rw [latexLine, String.toList_append, String.toList_intercalate]
  rfl

theorem unbroken_markdownLine (plain : ∀ s ∈ fields, Plain s.toList) :
    '\n' ∉ (markdownLine fields).toList := by
  rw [toList_markdownLine]
  exact Delimited.notMem_line (by decide) (by decide) (by decide)
    fun s listed feed => (plain s listed _ feed).2.2 rfl

theorem unbroken_latexLine (plain : ∀ s ∈ fields, Plain s.toList) :
    '\n' ∉ (latexLine fields).toList := by
  rw [toList_latexLine]
  exact Delimited.notMem_line (by decide) (by decide) (by decide)
    fun s listed feed => (plain s listed _ feed).2.2 rfl

theorem mapM_fieldsOf? {before sep after : List Char} {write : List String → String}
    (read : ∀ fields ∈ cells, fieldsOf? before sep after (write fields).toList = some fields) :
    ((cells.map write).map String.toList).mapM (fieldsOf? before sep after) = some cells := by
  induction cells with
  | nil => rfl
  | cons fields cells ih =>
    obtain ⟨first, others⟩ := List.forall_mem_cons.mp read
    rw [List.map_cons, List.map_cons, List.mapM_cons, first, ih others]
    rfl

/-- A Markdown table of plain fields is read as them. -/
theorem read_markdown (table : PlainTable (header :: cells)) :
    readMarkdown (markdown header cells) = some (header :: cells) := by
  have read : ∀ fields ∈ header :: cells, fieldsOf? "| ".toList " | ".toList " |".toList
      (markdownLine fields).toList = some fields := by
    intro fields listed
    rw [toList_markdownLine]
    exact Delimited.fieldsOf?_line (by decide) (table.filled fields listed)
      (fun s mem sign => (table.plain fields listed s mem _ sign).1 rfl) _ _
  -- The second line is passed over, but it must be one line for that.
  have dashes : ∀ s ∈ header.map fun _ => "---", Plain s.toList := by
    simp only [List.forall_mem_map]
    intro _ _
    decide
  have unbroken : ∀ line ∈ markdownLine header ::
      markdownLine (header.map fun _ => "---") :: cells.map markdownLine, '\n' ∉ line.toList := by
    obtain ⟨first, others⟩ := List.forall_mem_cons.mp table.plain
    simp only [List.forall_mem_cons, List.forall_mem_map]
    exact ⟨unbroken_markdownLine first, unbroken_markdownLine dashes,
      fun fields listed => unbroken_markdownLine (others fields listed)⟩
  rw [readMarkdown, markdown, Delimited.linesOf_intercalate (by simp) unbroken]
  exact mapM_fieldsOf? read

theorem unbroken_specification (header : List String) :
    '\n' ∉ ("\\begin\x7btabular\x7d\x7b" ++
      ("|" ++ "|".intercalate (header.map fun _ => "c") ++ "|") ++ "\x7d").toList := by
  have joined : '\n' ∉ ['|'].intercalate ((header.map fun _ => "c").map String.toList) := by
    refine Delimited.notMem_intercalate (by decide) ?_
    rw [List.map_map]
    exact List.forall_mem_map.mpr fun _ _ => show '\n' ∉ "c".toList by decide
  simp only [String.toList_append, String.toList_intercalate, List.mem_append, not_or]
  exact ⟨⟨by decide, ⟨by decide, joined⟩, by decide⟩, by decide⟩

/-- A LaTeX table of plain fields is read as them. -/
theorem read_latex (table : PlainTable (header :: cells)) :
    readLatex (latex header cells) = some (header :: cells) := by
  have read : ∀ fields ∈ header :: cells, fieldsOf? [] " & ".toList " \\\\".toList
      (latexLine fields).toList = some fields := by
    intro fields listed
    rw [toList_latexLine]
    exact Delimited.fieldsOf?_line (by decide) (table.filled fields listed)
      (fun s mem sign => (table.plain fields listed s mem _ sign).2.1 rfl) _ _
  have unbroken : ∀ line ∈ ["\\begin\x7btabular\x7d\x7b" ++
      ("|" ++ "|".intercalate (header.map fun _ => "c") ++ "|") ++ "\x7d", "\\hline",
      latexLine header, "\\hline"] ++ cells.map latexLine ++
      ["\\hline", "\\end\x7btabular\x7d"], '\n' ∉ line.toList := by
    obtain ⟨first, others⟩ := List.forall_mem_cons.mp table.plain
    have rows : ∀ line ∈ cells.map latexLine, '\n' ∉ line.toList :=
      List.forall_mem_map.mpr fun fields listed => unbroken_latexLine (others fields listed)
    simp only [List.forall_mem_append, List.forall_mem_cons]
    exact ⟨⟨⟨unbroken_specification header, by decide, unbroken_latexLine first, by decide,
      by simp⟩, rows⟩, by decide, by decide, by simp⟩
  -- The last two lines close the table.
  have body : ((cells.map latexLine ++ ["\\hline", "\\end\x7btabular\x7d"]).map
      String.toList).rdrop 2 = (cells.map latexLine).map String.toList := by
    rw [List.map_append]
    exact List.rdrop_append_length
  rw [readLatex, latex, Delimited.linesOf_intercalate (by simp) unbroken]
  simp only [List.cons_append, List.nil_append, List.map_cons, body]
  exact mapM_fieldsOf? read

end Lines

/-! ### Built tables -/

section Built

variable {e : Expr} {vars : List String} {order : RowOrder} {subformulas : Bool}
variable {mode : NegationMode} {t : TruthTable}

/-- A table has a column: that of the formula, or of the variable that it is. -/
theorem columnsOf_ne_nil (covered : ∀ x ∈ e.shape.vars, x ∈ vars) (subformulas : Bool)
    (mode : NegationMode) : columnsOf e vars subformulas mode ≠ [] := by
  intro none
  obtain ⟨inputs, nodes⟩ := List.append_eq_nil_iff.mp none
  cases compound : e.shape.isVar with
  | false =>
    obtain ⟨n, derived, -⟩ := exists_mem_derivedNodes compound subformulas
    rw [List.map_eq_nil_iff.mp nodes] at derived
    cases derived
  | true =>
    cases whole : e.shape with
    | var x =>
      have declared := covered x (by simp [whole, Formula.vars])
      rw [List.map_eq_nil_iff.mp inputs] at declared
      cases declared
    | const | not | binary => simp [whole, Formula.isVar] at compound

theorem plain_label (named : ∀ x ∈ vars, spellsName x = true)
    (covered : ∀ x ∈ e.shape.vars, x ∈ vars) {c : Column}
    (listed : c ∈ columnsOf e vars subformulas mode) : Plain c.label.toList := by
  simp only [columnsOf, List.mem_append, List.mem_map] at listed
  rcases listed with ⟨x, declared, rfl⟩ | ⟨n, derived, rfl⟩
  · exact Delimited.plain_name (named x declared)
  · have occurs := shape_mem_of_mem_derivedNodes derived
    exact Delimited.plain_apply (fun x inside =>
      named x (Formula.covered_of_mem_subformulas covered occurs x inside)) mode

/-- The header and the cells have a field for every column. -/
theorem ne_nil_of_columns {columns : List Column} (some : columns ≠ []) (rows : List Row)
    (style : TruthStyle) : ∀ fields ∈ header columns :: cells rows columns style, fields ≠ [] := by
  simp [header, cells, some]

/-- The header and the cells of a table over names are plain. -/
theorem plainTable_of_build (named : ∀ x ∈ vars, spellsName x = true)
    (built : build e vars order subformulas mode = .ok t) (style : TruthStyle) :
    PlainTable (header t.columns :: cells t.rows t.columns style) := by
  obtain ⟨covered, rfl⟩ := build_eq_ok_iff.mp built
  refine ⟨ne_nil_of_columns (columnsOf_ne_nil covered subformulas mode) _ style, ?_⟩
  simp only [List.forall_mem_cons, header, cells, List.forall_mem_map]
  exact ⟨fun c listed => plain_label named covered listed,
    fun row _ c _ => Delimited.plain_sign style (row.values.get? c.key)⟩

end Built

/-- **A written table is read back from each format.** Comma-separated values give the header and
the cells of any columns and rows, whatever the labels and whatever cells are missing. Markdown and
LaTeX, which escape nothing, give those of every table that was built over names. -/
theorem render_read_back :
    (∀ (columns : List Column) (rows : List Row) (style : TruthStyle), columns ≠ [] →
      Csv.read (render .csv style rows columns) =
        some (header columns :: cells rows columns style)) ∧
    ∀ (e : Expr) (vars : List String) (order : RowOrder) (subformulas : Bool)
      (mode : NegationMode) (style : TruthStyle) (t : TruthTable),
      (∀ x ∈ vars, spellsName x = true) → build e vars order subformulas mode = .ok t →
      readMarkdown (render .markdown style t.rows t.columns) =
        some (header t.columns :: cells t.rows t.columns style) ∧
      readLatex (render .latex style t.rows t.columns) =
        some (header t.columns :: cells t.rows t.columns style) := by
  constructor
  · intro columns rows style filled
    obtain ⟨first, others⟩ := List.forall_mem_cons.mp (ne_nil_of_columns filled rows style)
    rw [render, read_csv first others]
  · intro e vars order subformulas mode style t named built
    have plain := plainTable_of_build named built style
    rw [render, render, read_markdown plain, read_latex plain]
    exact ⟨rfl, rfl⟩

/-- Labels with quotes, commas and line feeds, an empty one at the end, and a missing cell; and the
table of a doubled negation. -/
theorem render_read_back_oddLabels :
    let columns : List Column :=
      [⟨"A", "say \"A\",\nor not\n", false, .input⟩, ⟨"B", "", true, .input⟩]
    let rows : List Row := [⟨0, .ofList [("A", true)]⟩, ⟨1, .empty⟩]
    let e : Expr := .not {} (.not {} (.var {} "A1"))
    columns ≠ [] ∧
    render .csv .letters rows columns = "\"say \"\"A\"\",\nor not\n\",\nT,\n," ∧
    Csv.read (render .csv .letters rows columns) =
      some [["say \"A\",\nor not\n", ""], ["T", ""], ["", ""]] ∧
    (∀ x ∈ ["A1"], spellsName x = true) ∧
    ∃ t, build e ["A1"] .ascending true .simplify = .ok t ∧
      readMarkdown (render .markdown .binary t.rows t.columns) =
        some [["A1", "¬A1", "A1"], ["0", "1", "0"], ["1", "0", "1"]] ∧
      readLatex (render .latex .binary t.rows t.columns) =
        some [["A1", "¬A1", "A1"], ["0", "1", "0"], ["1", "0", "1"]] := by
  intro columns rows e
  have filled : columns ≠ [] := List.cons_ne_nil _ _
  have named : ∀ x ∈ ["A1"], spellsName x = true := by decide
  have built : build e ["A1"] .ascending true .simplify =
      .ok (tableOf e ["A1"] .ascending true .simplify) := build_eq_ok (by decide)
  obtain ⟨markdown, latex⟩ := render_read_back.2 e ["A1"] .ascending true .simplify .binary _
    named built
  refine ⟨filled, by decide +kernel, ?_, named, _, built, ?_, ?_⟩
  · exact (render_read_back.1 columns rows .letters filled).trans (by decide +kernel)
  · exact markdown.trans (by decide +kernel)
  · exact latex.trans (by decide +kernel)

end TruthTable

end Sentential
