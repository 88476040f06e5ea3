import Sentential.Karnaugh
import Sentential.Proofs.Table.Columns
import Sentential.Proofs.Tableau.Marks
import Sentential.Shortcut

/-!
# Marks are only shown

The number of a node and the brackets around it are carried through every computation, since the
columns of a table, the steps of a proof and the reduct of a shortcut show expressions as they were
written. They decide nothing: columns are merged, cells are looked up, obligations are compared and
rules are chosen by the formula alone. So two expressions of one formula can be exchanged, and only
texts and the numbers of nodes can tell.

## Main definitions

* `Column.Alike`, `TruthTable.Alike` — tables that are the same except for labels and node numbers
* `Shortcut.Alike` — rules that decide the same
* `Expr.Interchangeable` — what the computations on two expressions have in common

## Main results

* `TruthTable.alike_tableOf` — tables of one formula are alike
* `Expr.marks_irrelevant` — expressions of one formula are interchangeable
-/

namespace Sentential

variable {e e' : Expr} {vars : List String} {subformulas : Bool} {order : RowOrder}
variable {mode : NegationMode}

/-! ### Tables -/

/-- Columns that differ at most in what they show and in the number of their node. -/
structure Column.Alike (c c' : Column) : Prop where
  key_eq : c.key = c'.key
  isInput_eq : c.isInput = c'.isInput
  isOutput_eq : c.isOutput = c'.isOutput
  dependencies_eq : c.dependencies = c'.dependencies
  /-- The column of a declared name is the same. -/
  input_eq : c.isInput = true → c = c'

/-- Tables that differ at most in the labels and node numbers of derived columns. -/
structure TruthTable.Alike (t t' : TruthTable) : Prop where
  columns : List.Forall₂ Column.Alike t.columns t'.columns
  rows_eq : t.rows = t'.rows
  classification_eq : t.classification = t'.classification
  outputKey_eq : t.outputKey = t'.outputKey

namespace TruthTable

theorem alike_inputColumn (same : e.shape = e'.shape) (x : String) :
    (inputColumn e.shape x).Alike (inputColumn e'.shape x) := by
  rw [same]
  exact ⟨rfl, rfl, rfl, rfl, fun _ => rfl⟩

theorem alike_nodeColumn (same : e.shape = e'.shape) {n n' : Expr} (nodes : n.shape = n'.shape)
    (mode : NegationMode) :
    (nodeColumn e.shape mode n).Alike (nodeColumn e'.shape mode n') where
  key_eq := congrArg Formula.text nodes
  isInput_eq := rfl
  isOutput_eq := by rw [nodeColumn, nodeColumn, nodes, same]
  dependencies_eq := congrArg (fun f => f.operands.map Formula.text) nodes
  input_eq := by rintro ⟨⟩

/-- Derived columns are made for the same formulas in the same order. -/
theorem forall₂_derivedNodes (same : e.shape = e'.shape) (subformulas : Bool) :
    List.Forall₂ (fun n n' => n.shape = n'.shape) (derivedNodes e subformulas)
      (derivedNodes e' subformulas) := by
  have shapes : (derivedNodes e subformulas).map Expr.shape =
      (derivedNodes e' subformulas).map Expr.shape := by
    rw [map_shape_derivedNodes, map_shape_derivedNodes, same]
  rwa [← List.forall₂_eq_eq_eq, List.forall₂_map_left_iff, List.forall₂_map_right_iff] at shapes

theorem alike_columnsOf (same : e.shape = e'.shape) (vars : List String) (subformulas : Bool)
    (mode : NegationMode) : List.Forall₂ Column.Alike (columnsOf e vars subformulas mode)
      (columnsOf e' vars subformulas mode) := by
  rw [columnsOf_eq, columnsOf_eq]
  refine List.rel_append ?_ ?_
  · rw [List.forall₂_map_left_iff, List.forall₂_map_right_iff, List.forall₂_same]
    exact fun x _ => alike_inputColumn same x
  · rw [List.forall₂_map_left_iff, List.forall₂_map_right_iff]
    exact (forall₂_derivedNodes same subformulas).imp fun n n' nodes =>
      alike_nodeColumn same nodes mode

theorem rowAt_congr (same : e.shape = e'.shape) (n : Nat) :
    rowAt e vars subformulas n = rowAt e' vars subformulas n := by
  have cells : ∀ e : Expr, ((derivedNodes e subformulas).map fun n' =>
      (n'.shape.text, (shown e.shape n'.shape.text).eval (valuation n vars))) =
      (derivedFormulas e.shape subformulas).map fun g =>
        (g.text, (shown e.shape g.text).eval (valuation n vars)) := by
    intro e
    rw [← map_shape_derivedNodes, List.map_map]
    rfl
  rw [rowAt, rowAt, cells, cells, same]

/-- Tables of one formula are alike. -/
theorem alike_tableOf (same : e.shape = e'.shape) :
    (tableOf e vars order subformulas mode).Alike (tableOf e' vars order subformulas mode) := by
  have rows : (tableOf e vars order subformulas mode).rows =
      (tableOf e' vars order subformulas mode).rows :=
    List.map_congr_left fun n _ => rowAt_congr same n
  refine ⟨alike_columnsOf same vars subformulas mode, rows, ?_, congrArg Formula.text same⟩
  exact congrArg₂ (fun rows key => (classify? rows key).getD .contingency) rows
    (congrArg Formula.text same)

end TruthTable

/-! ### Shortcuts -/

/-- Verdicts for the same value, or for expressions that are alike. -/
inductive Shortcut.Verdict.Alike : Verdict → Verdict → Prop where
  | value (b : Bool) : Alike (.value b) (.value b)
  | reduced {e e' : Expr} (expr : e.Alike e') : Alike (.reduced e) (.reduced e')

/-- Rules of the same name that decide the same for the same reason. -/
structure Shortcut.Alike (s s' : Shortcut) : Prop where
  rule_eq : s.rule = s'.rule
  explanation_eq : s.explanation = s'.explanation
  verdict : s.verdict.Alike s'.verdict

theorem Shortcut.alike_value {s : Shortcut} {b : Bool} (decides : s.verdict = .value b) :
    s.Alike s :=
  ⟨rfl, rfl, decides ▸ .value b⟩

theorem Shortcut.alike_trueAntecedent (alike : e.Alike e') :
    (trueAntecedent e).Alike (trueAntecedent e') :=
  ⟨rfl, rfl, .reduced alike⟩

/-- The first rule that applies is the same for expressions that are alike. -/
theorem Expr.alike_shortcut? (alike : e.Alike e') :
    Option.Rel Shortcut.Alike e.shortcut? e'.shortcut? := by
  have decides : ∀ {s : Shortcut} {b : Bool}, s.verdict = .value b →
      Option.Rel Shortcut.Alike (some s) (some s) :=
    fun decided => .some (Shortcut.alike_value decided)
  cases alike with
  | var | not => exact .none
  | const => exact decides rfl
  | binary m m' op left right =>
    cases op with
    | implies =>
      rw [shortcut?, shortcut?, left.shape_eq, right.shape_eq]
      split
      · exact decides rfl
      split
      · exact decides rfl
      split
      · exact .some (Shortcut.alike_trueAntecedent right)
      split
      · exact decides rfl
      · exact .none
    | and | or =>
      rw [shortcut?, shortcut?, left.shape_eq, right.shape_eq]
      split
      · exact decides rfl
      split
      · exact decides rfl
      · exact .none
    | xor | iff => exact .none

/-! ### Exchanging expressions -/

/-- What the computations on two expressions have in common when the expressions can be exchanged:
everything but the texts and the node numbers that are shown. -/
structure Expr.Interchangeable (e e' : Expr) : Prop where
  eval?_eq : ∀ σ, e.shape.eval? σ = e'.shape.eval? σ
  evalInto_eq : ∀ σ memo, e.shape.evalInto σ memo = e'.shape.evalInto σ memo
  /-- Tables are refused for the same reason, or they are alike and have the same map. -/
  table : ∀ vars order subformulas mode,
    (∃ d, TruthTable.build e vars order subformulas mode = .error d ∧
      TruthTable.build e' vars order subformulas mode = .error d) ∨
    ∃ t t', TruthTable.build e vars order subformulas mode = .ok t ∧
      TruthTable.build e' vars order subformulas mode = .ok t' ∧ t.Alike t' ∧
      Karnaugh.map? vars t.rows t.outputKey = Karnaugh.map? vars t'.rows t'.outputKey
  /-- Proof attempts exceed a limit together, or their reports are alike. -/
  report : ∀ limit vars target, Option.Rel Report.Alike
    (Report.attemptWithin limit e vars target) (Report.attemptWithin limit e' vars target)
  /-- No shortcut applies, or one and the same. -/
  shortcut : Option.Rel Shortcut.Alike e.shortcut? e'.shortcut?

/-- **Marks are only shown.** Two expressions that are one formula, whatever the numbers of their
nodes and the brackets around them, can be exchanged in evaluations, tables, maps, proof attempts
and shortcuts. -/
theorem Expr.marks_irrelevant (e e' : Expr) (same : e.shape = e'.shape) :
    e.Interchangeable e' where
  eval?_eq σ := by rw [same]
  evalInto_eq σ memo := by rw [same]
  table vars order subformulas mode := by
    by_cases none : TruthTable.undeclared e.shape vars = []
    · have covered := TruthTable.undeclared_eq_nil_iff.mp none
      have alike : (TruthTable.tableOf e vars order subformulas mode).Alike
          (TruthTable.tableOf e' vars order subformulas mode) := TruthTable.alike_tableOf same
      refine Or.inr ⟨_, _, TruthTable.build_eq_ok covered,
        TruthTable.build_eq_ok (same ▸ covered), alike, ?_⟩
      rw [alike.rows_eq, alike.outputKey_eq]
    · refine Or.inl ⟨_, TruthTable.build_eq_error none, ?_⟩
      rw [TruthTable.build_eq_error (same ▸ none), same]
  report limit vars target := Report.alike_attemptWithin (alike_iff.mpr same) limit vars target
  shortcut := alike_shortcut? (alike_iff.mpr same)

/-- The expression of `TruthTable.bracketedTwice` with other numbers and other brackets. -/
def Expr.bracketedElsewhere : Expr :=
  .binary ⟨-7, 3⟩ .implies
    (.binary ⟨1, -1⟩ .or (.binary {} .and (.var {} "A") (.var ⟨9, 2⟩ "B"))
      (.not ⟨1, 1⟩ (.binary {} .and (.var {} "A") (.var {} "B"))))
    (.const ⟨4, 4⟩ true)

theorem Expr.marks_irrelevant_bracketedTwice :
    TruthTable.bracketedTwice ≠ bracketedElsewhere ∧
      TruthTable.bracketedTwice.shape = bracketedElsewhere.shape ∧
      TruthTable.bracketedTwice.Interchangeable bracketedElsewhere :=
  ⟨by decide, rfl, marks_irrelevant _ _ rfl⟩

end Sentential
