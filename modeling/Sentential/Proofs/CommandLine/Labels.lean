import Sentential.CommandLine.Output
import Sentential.Proofs.Analysis.Agreement
import Sentential.Proofs.Label.Meaning
import Sentential.Proofs.Table.Columns

/-!
# Rows under labels

The program writes a row as an object from labels to cells. Labels are made for the eye and may be
equal where keys are not: a mode that cancels negations shows `¬¬A` and `A` in the same way. The
last column of a label gives the cell, but it does not matter which one does: a label is read back
as a formula, and the cells of all its columns are the values of that formula.

## Main results

* `TruthTable.exists_ofText_label` — the cells of a column are the values of its label
* `CommandLine.Output.cell?_label` — in the object of a row, columns of one label share a cell
* `CommandLine.Output.labelled_rows_lossless` — the object of a row has all of its cells
-/

namespace Sentential

open Token (spellsName)

namespace TruthTable

variable {e : Expr} {vars : List String} {subformulas : Bool} {mode : NegationMode}

/-- A label is read back as a formula whose values are the cells of the column. -/
theorem exists_ofText_label (named : ∀ x ∈ vars, spellsName x = true)
    (covered : ∀ x ∈ e.shape.vars, x ∈ vars) {c : Column}
    (mem : c ∈ columnsOf e vars subformulas mode) :
    ∃ u, Expr.ofText c.label = .ok u ∧ ∀ n : Nat,
      (rowAt e vars subformulas n).values.get? c.key = some (u.shape.eval (valuation n vars)) := by
  rw [columnsOf_eq, List.mem_append, List.mem_map, List.mem_map] at mem
  rcases mem with ⟨x, declared, rfl⟩ | ⟨node, listed, rfl⟩
  · have spelled : ∀ y ∈ (Formula.var x).vars, spellsName y = true :=
      List.forall_mem_singleton.mpr (named x declared)
    obtain ⟨u, read, shape⟩ := Expr.exists_ofText_formula spelled
    refine ⟨u, read, fun n => ?_⟩
    rw [shape]
    exact (get?_rowAt_input named covered declared n).trans (get?_assignment declared)
  · have shown : node.shape ∈ derivedFormulas e.shape subformulas := by
      rw [← map_shape_derivedNodes]
      exact List.mem_map_of_mem listed
    have spelled : ∀ x ∈ node.shape.vars, spellsName x = true := fun x occurs =>
      named x (Formula.covered_of_mem_subformulas covered
        (mem_subformulas_of_mem_derivedFormulas shown) x occurs)
    obtain ⟨u, read, -, value⟩ := Expr.exists_ofText_label spelled mode
    refine ⟨u, read, fun n => ?_⟩
    rw [value]
    exact get?_rowAt_derived named covered shown n

/-- Columns of one label have equal cells. -/
theorem get?_rowAt_of_label_eq (named : ∀ x ∈ vars, spellsName x = true)
    (covered : ∀ x ∈ e.shape.vars, x ∈ vars) {c c' : Column}
    (mem : c ∈ columnsOf e vars subformulas mode) (mem' : c' ∈ columnsOf e vars subformulas mode)
    (label : c.label = c'.label) (n : Nat) :
    (rowAt e vars subformulas n).values.get? c.key =
      (rowAt e vars subformulas n).values.get? c'.key := by
  obtain ⟨u, read, cells⟩ := exists_ofText_label named covered mem
  obtain ⟨u', read', cells'⟩ := exists_ofText_label named covered mem'
  rw [label, read'] at read
  rw [cells, cells', Except.ok.inj read]

end TruthTable

theorem Datum.get?_object (m : OrderedMap String Datum) (name : String) :
    (Datum.object m.entries).get? name = m.get? name := by
  have found : ∀ entries : List (String × Datum),
      entry? name (entries.map fun f => (text f.1, f.2)) = OrderedMap.find name entries := by
    intro entries
    induction entries with
    | nil => rfl
    | cons f rest ih => rw [List.map_cons, entry?, OrderedMap.find, ih]
  exact found m.entries

namespace CommandLine.Output

variable {columns : List Column} {row : Row}

/-- The cell that the object of a row has under a label. -/
def cell? (columns : List Column) (row : Row) (label : String) : Option Datum :=
  ((rowDatum columns row).get? "values").bind (Datum.get? label)

/-- The object of a row has under every label the cells of all columns of that label. -/
structure Lossless (columns : List Column) (row : Row) : Prop where
  cell : ∀ c ∈ columns, ∃ b, row.values.get? c.key = some b ∧
    cell? columns row c.label = some (.bool b)
  same : ∀ c ∈ columns, ∀ c' ∈ columns, c.label = c'.label →
    row.values.get? c.key = row.values.get? c'.key

/-- Under a label stands the cell of any of its columns, if they all have the same. -/
theorem cell?_label
    (same : ∀ c ∈ columns, ∀ c' ∈ columns, c.label = c'.label →
      row.values.get? c.key = row.values.get? c'.key)
    {c : Column} (mem : c ∈ columns) :
    cell? columns row c.label = some (.ofOption .bool (row.values.get? c.key)) := by
  have written : cell? columns row c.label = (OrderedMap.ofList (columns.map fun c =>
      (c.label, Datum.ofOption .bool (row.values.get? c.key)))).get? c.label :=
    Datum.get?_object _ _
  rw [written]
  refine OrderedMap.get?_insertMany_of_unique _ _ (fun y other => ?_)
    (Or.inl (List.mem_map_of_mem mem))
  obtain ⟨c', mem', entry⟩ := List.mem_map.mp other
  obtain ⟨label, rfl⟩ := Prod.mk.inj entry
  rw [same c' mem' c mem label]

theorem lossless_rowAt {e : Expr} {vars : List String} (named : ∀ x ∈ vars, spellsName x = true)
    (covered : ∀ x ∈ e.shape.vars, x ∈ vars) (subformulas : Bool) (mode : NegationMode) (n : Nat) :
    Lossless (TruthTable.columnsOf e vars subformulas mode)
      (TruthTable.rowAt e vars subformulas n) where
  cell c mem := by
    obtain ⟨u, -, cells⟩ := TruthTable.exists_ofText_label named covered mem
    refine ⟨_, cells n, ?_⟩
    rw [cell?_label (fun c mem c' mem' label =>
      TruthTable.get?_rowAt_of_label_eq named covered mem mem' label n) mem, cells n]
    rfl
  same c mem c' mem' label := TruthTable.get?_rowAt_of_label_eq named covered mem mem' label n

/-- **Rows under labels lose nothing.** The rows of an analysis are printed as objects from labels
to cells. If the declared names are letters with digits, then whatever the limits and the settings,
the object of a row has under the label of every column the cell of that column, also where several
columns have one label: these have equal cells in every row. -/
theorem labelled_rows_lossless (limits : Limits) (text : Option String)
    (declared : List String) (settings : Settings) (target : Option Target) (a : Analysis)
    (named : ∀ x ∈ Analysis.declaredNames declared, spellsName x = true)
    (analysed : Analysis.run text declared settings target limits = .ok a) :
    (analysisDatum a).get? "rows" = some (.list (a.table.rows.map (rowDatum a.table.columns))) ∧
      ∀ row ∈ a.table.rows, Lossless a.table.columns row := by
  obtain ⟨e, -, analysed⟩ := Analysis.run_eq_ok_iff.mp analysed
  obtain ⟨covered, report, -, rfl⟩ := Analysis.ofExpr_eq_ok_iff.mp analysed
  refine ⟨rfl, fun row mem => ?_⟩
  obtain ⟨n, -, rfl⟩ := List.mem_map.mp mem
  exact lossless_rowAt named covered _ _ n

theorem labelled_rows_lossless_cancelled : ∃ a row,
    Analysis.run (some "~~a & a") ["a"] { negation := .normalize } none = .ok a ∧
      a.table.columns.map Column.label = ["A", "¬A", "A", "A ∧ A"] ∧ row ∈ a.table.rows ∧
      row.values.get? "A" = some true ∧ row.values.get? "¬¬A" = some true ∧
      cell? a.table.columns row "A" = some (.bool true) := by
  have names : Analysis.declaredNames ["a"] = ["A"] := by decide +kernel
  let e : Expr := .binary ⟨4, 0⟩ .and (.not ⟨2, 0⟩ (.not ⟨1, 0⟩ (.var ⟨0, 0⟩ "A")))
    (.var ⟨3, 0⟩ "A")
  have read : Analysis.readExpr (some "~~a & a") = .ok e := by decide +kernel
  have analysed := Analysis.run_eq_ofParts read names (by decide) { negation := .normalize }
  obtain ⟨-, lossless⟩ := labelled_rows_lossless _ _ _ _ _ _ (by rw [names]; decide) analysed
  have second : TruthTable.rowAt e ["A"] true 1 ∈
      (Analysis.ofParts e ["A"] { negation := .normalize } none).table.rows :=
    List.mem_map_of_mem (TruthTable.mem_indices.mpr (by decide))
  have cells : (TruthTable.rowAt e ["A"] true 1).values.get? "A" = some true ∧
      (TruthTable.rowAt e ["A"] true 1).values.get? "¬¬A" = some true := by decide +kernel
  refine ⟨_, _, analysed, by decide +kernel, second, cells.1, cells.2, ?_⟩
  obtain ⟨b, cell, shown⟩ := (lossless _ second).cell ⟨"A", "A", false, .input⟩ (by decide +kernel)
  obtain rfl : b = true := Option.some.inj (cell.symm.trans cells.1)
  exact shown

end CommandLine.Output

end Sentential
