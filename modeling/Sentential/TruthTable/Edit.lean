import Sentential.TruthTable.Basic

/-!
# Editing rows

A cell of a row can be written. Writing an input computes the derived cells of the row anew; writing
a derived cell overrides it until the next computation.

## Main definitions

* `Row.refresh` — computes the derived cells from the input cells
* `Row.writeCell` — writes one cell
-/

namespace Sentential.Row

/-- The input cells of a row; a missing one counts as false. -/
def inputs (r : Row) (columns : List Column) : OrderedMap String Bool :=
  .ofList ((columns.filter Column.isInput).map (fun c => (c.key, r.truth c.key)))

/-- The row with its derived cells computed from its input cells. -/
def refresh (r : Row) (columns : List Column) (f : Formula) : Except Diagnostic Row := do
  let memo ← f.evalInto (r.inputs columns).get? .empty
  let derived ← TruthTable.derived f columns
  let values := r.values.insertMany (← TruthTable.derivedCells derived memo)
  return { r with values := values.insert f.text (← memo.value f) }

/-- The row with one cell written. -/
def writeCell (r : Row) (column : Column) (value : Bool) (columns : List Column) (f : Formula) :
    Except Diagnostic Row :=
  let edited : Row := { r with values := r.values.insert column.key value }
  if column.isInput then edited.refresh columns f else .ok edited

end Sentential.Row
