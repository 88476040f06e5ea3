import Sentential.Expr.Basic
import Sentential.Formula.Evaluation
import Sentential.Settings.Basic
import Sentential.Token.Scan

/-!
# Truth tables

A table has a row for every assignment of the declared variables and a column for every declared
variable and for the distinct subformulas. The number of a row is its assignment read as a binary
number, the first variable being the most significant digit; so a number means the same assignment
whatever the order of the rows. Cells are kept under the text of their column.

## Main definitions

* `Classification` — true always, never, or sometimes
* `Row`, `Column`, `TruthTable` — the parts of a table
* `Row.bit`, `TruthTable.assignment` — the assignment that a row number means
* `TruthTable.columnsOf` — the columns for an expression
* `TruthTable.build` — the table of an expression
-/

namespace Sentential

/-- How often a formula is true. -/
inductive Classification where
  | tautology
  | contradiction
  | contingency
deriving DecidableEq, Repr, Inhabited

namespace Classification

/-- The name of a classification. -/
def name : Classification → String
  | tautology => "Tautology"
  | contradiction => "Contradiction"
  | contingency => "Contingency"

/-- The classification of the values of a formula; none if there are no values. -/
def ofValues? : List Bool → Option Classification
  | [] => none
  | values =>
    if values.all id then some tautology
    else if values.all not then some contradiction
    else some contingency

/-- The message about a formula without values. -/
def emptyMessage : String := "Cannot classify an empty result column"

end Classification

/-- A row: its number and its cells, each under the text of its column. -/
structure Row where
  /-- The assignment of the row, read as a binary number. -/
  index : Int
  /-- The cells. -/
  values : OrderedMap String Bool

/-- Where the values of a column come from. -/
inductive Column.Source where
  /-- A declared variable. -/
  | input
  /-- A node of the expression, with its number and the texts of its operands. -/
  | node (id : Int) (operands : List String)
deriving DecidableEq, Repr

/-- A column of a table. -/
structure Column where
  /-- The text under which the cells are kept. -/
  key : String
  /-- The text that is shown. -/
  label : String
  /-- Whether the column holds the values of the whole formula. -/
  isOutput : Bool
  /-- Where its values come from. -/
  source : Column.Source
deriving DecidableEq, Repr

/-- A truth table. -/
structure TruthTable where
  /-- The columns, inputs first. -/
  columns : List Column
  /-- The rows. -/
  rows : List Row
  /-- How often the formula is true. -/
  classification : Classification
  /-- The key of the values of the whole formula. -/
  outputKey : String

namespace Column

/-- Whether the column belongs to a declared variable. -/
def isInput (c : Column) : Bool :=
  match c.source with
  | .input => true
  | .node .. => false

/-- The number of the node that a column belongs to. -/
def nodeId? (c : Column) : Option Int :=
  match c.source with
  | .input => none
  | .node id _ => some id

/-- The texts of the operands that a column is computed from. -/
def dependencies (c : Column) : List String :=
  match c.source with
  | .input => []
  | .node _ operands => operands

/-- The identifier of a column. -/
def id (c : Column) : String :=
  match c.source with
  | .input => "var:" ++ c.key
  | .node id _ => "node:" ++ toString id

end Column

namespace Row

/-- The identifier of a row. -/
def id (r : Row) : String := "row-" ++ toString r.index

/-- The binary digit of a number at a place, the last place being zero. A negative number counts as
continued to the left by ones. -/
def bit (n : Int) (place : Nat) : Bool := (n >>> place) % 2 == 1

/-- The cell of a row under a key; a missing one counts as false. -/
def truth (r : Row) (key : String) : Bool := (r.values.get? key).getD false

end Row

namespace TruthTable

/-- The entries of the assignment that a row number means. -/
def bindings (index : Int) : List String → List (String × Bool)
  | [] => []
  | v :: rest => (v, Row.bit index rest.length) :: bindings index rest

/-- The assignment that a row number means: the first variable is the most significant digit. -/
def assignment (index : Int) (vars : List String) : OrderedMap String Bool :=
  .ofList (bindings index vars)

/-- The variables of a formula that are not declared, in code-point order. -/
def undeclared (f : Formula) (vars : List String) : List String :=
  Token.sortedNames (f.vars.filter (fun x => decide (x ∉ vars)))

/-- Refuses a formula with variables that are not declared. -/
def requireDeclared (f : Formula) (vars : List String) : Except Diagnostic Unit :=
  match undeclared f vars with
  | [] => .ok ()
  | names => .error (.undeclared names)

/-- The classification of some rows by their cells under a key; none if there are no rows. -/
def classify? (rows : List Row) (key : String) : Option Classification :=
  Classification.ofValues? (rows.map (fun r => r.truth key))

/-- The nodes that get columns: the distinct compound subformulas, each where it is first completed,
or only the whole. A variable never gets one, and a constant only as the whole. -/
def derivedNodes (e : Expr) (subformulas : Bool) : List Expr :=
  if subformulas then
    match e with
    | .const .. => [e]
    | _ =>
      firstOccurrences Expr.shape
        (e.postorder.filter (fun n => !(n.shape.isVar || n.shape.isConst)))
  else if e.shape.isVar then [] else [e]

/-- The columns for an expression. -/
def columnsOf (e : Expr) (vars : List String) (subformulas : Bool) (mode : NegationMode) :
    List Column :=
  let output := e.shape.text
  vars.map (fun v => ⟨v, v, decide (v = output), .input⟩) ++
    (derivedNodes e subformulas).map (fun n =>
      { key := n.shape.text
        label := mode.apply n.text
        isOutput := decide (n.shape.text = output)
        source := .node n.mark.id (n.shape.operands.map Formula.text) })

/-- The subformula whose values are kept under a key: the last one with that text. -/
def bearer (f : Formula) (key : String) : Except Diagnostic Formula :=
  -- Names of variables can look like other formulas, so several may share a text.
  match f.subformulas.reverse.find? (fun g => g.text == key) with
  | some g => .ok g
  | none => .error (.unrecorded key)

/-- The derived columns: each key with the subformula that it shows. -/
def derived (f : Formula) (columns : List Column) : Except Diagnostic (List (String × Formula)) :=
  (columns.filter (fun c => !c.isInput)).mapM (fun c => return (c.key, ← bearer f c.key))

/-- The cells of the derived columns, from the values of all subformulas. -/
def derivedCells (derived : List (String × Formula)) (memo : Formula.Memo) :
    Except Diagnostic (List (String × Bool)) :=
  derived.mapM (fun d => return (d.1, ← memo.value d.2))

/-- The row with a number. -/
def rowOf (f : Formula) (vars : List String) (derived : List (String × Formula)) (index : Nat) :
    Except Diagnostic Row := do
  let inputs := assignment index vars
  let memo ← f.evalInto inputs.get? .empty
  let values := inputs.insertMany (← derivedCells derived memo)
  -- Without a derived column for the whole, as for a lone variable, its value is added here.
  return ⟨index, values.insertIfAbsent f.text (← memo.value f)⟩

/-- The row numbers of a table over `count` variables, in an order. -/
def indices (order : RowOrder) (count : Nat) : List Nat :=
  match order with
  | .ascending => List.range (Nat.pow 2 count)
  | .descending => (List.range (Nat.pow 2 count)).reverse

/-- The truth table of an expression over the declared variables. -/
def build (e : Expr) (vars : List String) (order : RowOrder) (subformulas : Bool)
    (mode : NegationMode) : Except Diagnostic TruthTable := do
  requireDeclared e.shape vars
  let columns := columnsOf e vars subformulas mode
  let derived ← derived e.shape columns
  let rows ← (indices order vars.length).mapM (rowOf e.shape vars derived)
  return {
    columns
    rows
    classification := (classify? rows e.shape.text).getD .contingency
    outputKey := e.shape.text }

/-- The column with a key. -/
def column? (columns : List Column) (key : String) : Option Column :=
  columns.find? (fun c => c.key == key)

/-- The values of the whole formula, row by row. -/
def outputs (rows : List Row) (key : String) : List Bool := rows.map (fun r => r.truth key)

end TruthTable

end Sentential
