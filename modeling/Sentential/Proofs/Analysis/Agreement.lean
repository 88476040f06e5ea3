import Sentential.Proofs.Analysis.Diagnostics
import Sentential.Proofs.Table.Decision
import Sentential.Proofs.Tableau.CounterExample

/-!
# Proofs and tables agree

A tableau searches for a refutation and a truth table tries all assignments; they share nothing but
the expression. Both decide the same property of formulas, so the verdict of the search can be read
off the classification of the table, and the counter-example of a failed attempt is the assignment
of one row, whose output is the value that was asked for.

A search that ends does not depend on its limit. The report inside an analysis is therefore the one
that a proof attempt gives alone.

## Main definitions

* `Target.classification` — the classification of the formulas for which a target holds
* `Report.AgreesWith` — a report and a table tell the same of a target
* `Analysis.ofParts` — the analysis over declared variables in closed form

## Main results

* `Report.attemptWithin_unique` — reports do not depend on the limit
* `Analysis.ofExpr_eq_ok_iff` — when there is an analysis, and which
* `Analysis.engines_agree` — an analysis, a proof attempt and a table agree
-/

namespace Sentential

/-- The classification of the formulas for which a target holds. -/
def Target.classification : Target → Classification
  | tautology | implication | equivalence => .tautology
  | contradiction => .contradiction
  | contingency => .contingency

/-- A table that decides a formula tells by its classification for which targets it holds. -/
theorem TruthTable.Decides.holdsFor_iff {t : TruthTable} {f : Formula} {vars : List String}
    {order : RowOrder} (decides : t.Decides f vars order) (target : Target) :
    target.HoldsFor f ↔ t.classification = target.classification := by
  cases target with
  | tautology | implication | equivalence => exact decides.tautology_iff.symm
  | contradiction => exact decides.contradiction_iff.symm
  | contingency => exact decides.contingency_iff.symm

theorem Branch.solveWithin_unique {b x y : Branch} {limit limit' : Nat} {pending : List Obligation}
    (ended : b.solveWithin limit pending = some x)
    (ended' : b.solveWithin limit' pending = some y) : x = y :=
  (solveWithin_eq_solve ended).trans (solveWithin_eq_solve ended').symm

namespace Report

open TruthTable (assignment numberOf)

variable {limit limit' : Nat} {e l r : Expr} {vars names : List String} {target : Target}
variable {title : String} {report report' : Report} {P : (String → Bool) → Prop}
variable {m : OrderedMap String Bool}

/-! ### Limits -/

theorem single_unique (ended : single limit e vars target title = some report)
    (ended' : single limit' e vars target title = some report') : report = report' := by
  obtain ⟨root, solved, rfl⟩ := Option.map_eq_some_iff.mp ended
  obtain ⟨root', solved', rfl⟩ := Option.map_eq_some_iff.mp ended'
  rw [Branch.solveWithin_unique solved solved']

theorem map_single_unique {f : Report → Report}
    (ended : (single limit e vars target title).map f = some report)
    (ended' : (single limit' e vars target title).map f = some report') : report = report' := by
  obtain ⟨inner, innerEnded, rfl⟩ := Option.map_eq_some_iff.mp ended
  obtain ⟨inner', innerEnded', rfl⟩ := Option.map_eq_some_iff.mp ended'
  rw [single_unique innerEnded innerEnded']

theorem ofImplication_unique (ended : ofImplication limit l r vars = some report)
    (ended' : ofImplication limit' l r vars = some report') : report = report' := by
  obtain ⟨root, solved, rfl⟩ := Option.map_eq_some_iff.mp ended
  obtain ⟨root', solved', rfl⟩ := Option.map_eq_some_iff.mp ended'
  rw [Branch.solveWithin_unique solved solved']

theorem ofEquivalence_unique (ended : ofEquivalence limit e l r vars = some report)
    (ended' : ofEquivalence limit' e l r vars = some report') : report = report' := by
  unfold ofEquivalence at ended ended'
  dsimp only at ended ended'
  split at ended
  · contradiction
  split at ended'
  · contradiction
  rename_i x solvedX _ x' solvedX'
  obtain ⟨y, solvedY, rfl⟩ := Option.map_eq_some_iff.mp ended
  obtain ⟨y', solvedY', rfl⟩ := Option.map_eq_some_iff.mp ended'
  rw [Branch.solveWithin_unique solvedX solvedX', Branch.solveWithin_unique solvedY solvedY']

theorem ofContingency_unique (ended : ofContingency limit e vars = some report)
    (ended' : ofContingency limit' e vars = some report') : report = report' := by
  simp only [ofContingency, Option.bind_eq_bind, Option.bind_eq_some_iff] at ended ended'
  obtain ⟨always, endedAlways, ended⟩ := ended
  obtain ⟨always', endedAlways', ended'⟩ := ended'
  obtain rfl := single_unique endedAlways endedAlways'
  split at ended
  · rename_i proven
    rw [if_pos proven] at ended'
    exact Option.some.inj (ended.symm.trans ended')
  · rename_i refuted
    rw [if_neg refuted, Option.bind_eq_some_iff] at ended'
    obtain ⟨never, endedNever, ended⟩ := Option.bind_eq_some_iff.mp ended
    obtain ⟨never', endedNever', ended'⟩ := ended'
    obtain rfl := single_unique endedNever endedNever'
    exact Option.some.inj (ended.symm.trans ended')

/-- Two attempts that end give the same report, whatever the limits on nested splits. -/
theorem attemptWithin_unique (ended : attemptWithin limit e vars target = some report)
    (ended' : attemptWithin limit' e vars target = some report') : report = report' := by
  -- The root decides between a rule of its own and the attempt at a tautology.
  cases target with
  | contingency => exact ofContingency_unique ended ended'
  | tautology | contradiction => exact single_unique ended ended'
  | implication =>
    cases e with
    | var | const | not => exact map_single_unique ended ended'
    | binary m op l r =>
      cases op with
      | implies => exact ofImplication_unique ended ended'
      | and | or | xor | iff => exact map_single_unique ended ended'
  | equivalence =>
    cases e with
    | var | const | not => exact map_single_unique ended ended'
    | binary m op l r =>
      cases op with
      | iff => exact ofEquivalence_unique ended ended'
      | and | or | xor | implies => exact map_single_unique ended ended'

/-! ### Counter-examples as rows -/

/-- A counter-example is the assignment that some row number means. -/
theorem Answers.exists_assignment_eq (answers : report.Answers vars names P)
    (covered : names ⊆ vars) (found : report.counterExample = some m) :
    ∃ v : String → Bool, m = .ofList (vars.map fun x => (x, v x)) := by
  rw [answers.counterExample_eq] at found
  obtain ⟨leaf, openLeaf, rfl⟩ := Option.map_eq_some_iff.mp found
  exact ⟨completedValue leaf.variableValues, complete_eq_listed fun name x mem =>
    covered (answers.settles.mem_names leaf openLeaf name x mem)⟩

/-- A report and a table tell the same of a target. -/
structure AgreesWith (report : Report) (t : TruthTable) (vars : List String) (target : Target) :
    Prop where
  /-- The verdict is the classification. -/
  proven_iff : report.proven = true ↔ t.classification = target.classification
  /-- A counter-example is the assignment of one row, and refutes the target there. -/
  refutes : target ≠ .contingency → report.proven = false →
    ∃ m row, report.counterExample = some m ∧ row ∈ t.rows ∧ assignment row.index vars = m ∧
      (∀ row' ∈ t.rows, assignment row'.index vars = m → row' = row) ∧
      row.values.get? t.outputKey = some (decide (target = .contradiction))

/-- An attempt that ends agrees with every table that decides the formula over distinct names. -/
theorem agreesWith_of_decides {t : TruthTable} {order : RowOrder}
    (ended : attemptWithin limit e vars target = some report)
    (decides : t.Decides e.shape vars order) (covered : ∀ x ∈ e.shape.vars, x ∈ vars)
    (nodup : vars.Nodup) : report.AgreesWith t vars target where
  proven_iff := (proven_iff_holdsFor ended).trans (decides.holdsFor_iff target)
  refutes notContingency refuted := by
    have answers := answers_attemptWithin notContingency ended
    obtain ⟨m, found⟩ := answers.exists_counterExample refuted
    obtain ⟨v, assigned⟩ := answers.exists_assignment_eq covered found
    obtain ⟨row, ⟨mem, same⟩, only⟩ := decides.unique nodup v
    rw [← assigned] at same
    refine ⟨m, row, found, mem, same, fun row' mem' same' => ?_, ?_⟩
    · exact only row' ⟨mem', same'.trans assigned⟩
    · -- The output of the row is the value under the counter-example, which refutes the target.
      obtain ⟨b, output, value⟩ := decides.value row mem
      rw [same, answers.eval?_counterExample covered found, Except.ok.injEq] at value
      rw [output, ← value]

end Report

namespace Analysis

variable {text : Option String} {declared vars : List String} {settings : Settings} {e : Expr}
variable {target : Option Target} {goal : Target} {a : Analysis} {report : Report}
variable {limits : Limits}

/-- The analysis over declared variables, with the report of an attempt if one was made. -/
def ofParts (e : Expr) (vars : List String) (settings : Settings) (report : Option Report) :
    Analysis :=
  let table :=
    TruthTable.tableOf e vars settings.order settings.subformulas settings.negation
  { expr := e
    vars
    table
    forms := e.forms? settings.negation
    karnaugh := Karnaugh.map? vars table.rows table.outputKey
    shortcut := e.shortcut?
    complexity := .of e.shape table.rows.length vars
    report }

theorem attemptProof_eq_ok_iff :
    attemptProof e vars goal limits = .ok report ↔
      Report.attemptWithin limits.splits e vars goal = some report := by
  cases ended : Report.attemptWithin limits.splits e vars goal <;> simp [attemptProof, ended]

/-- There is an analysis if all variables are declared and the attempt, if one is asked for,
ends. -/
theorem ofExpr_eq_ok_iff : ofExpr e vars settings target limits = .ok a ↔
    (∀ x ∈ e.shape.vars, x ∈ vars) ∧
      ∃ report, target.map (Report.attemptWithin limits.splits e vars) = report.map some ∧
        a = ofParts e vars settings report := by
  by_cases covered : ∀ x ∈ e.shape.vars, x ∈ vars
  · rw [ofExpr, TruthTable.build_eq_ok covered, and_iff_right covered]
    cases target with
    | none => simp [diagnose, bind, Except.bind, pure, Except.pure, ofParts, eq_comm]
    | some goal =>
      cases ended : Report.attemptWithin limits.splits e vars goal with
      | none => simp [attemptProof, ended, diagnose, bind, Except.bind]
      | some report =>
        simp [attemptProof, ended, diagnose, bind, Except.bind, pure, Except.pure, ofParts, eq_comm]
  · have missing : TruthTable.undeclared e.shape vars ≠ [] := fun none =>
      covered (TruthTable.undeclared_eq_nil_iff.mp none)
    rw [(gated_ofExpr limits vars settings target).refuses e missing]
    simp [covered]

theorem run_eq_ok_iff : run text declared settings target limits = .ok a ↔
    ∃ e, readExpr text limits = .ok e ∧
      ofExpr e (declaredNames declared) settings target limits = .ok a := by
  rw [run]
  cases readExpr text limits <;> simp [diagnose, bind, Except.bind]

/-- Over names that cover a text there is an analysis of it if no proof is asked for. -/
theorem run_eq_ofParts (read : readExpr text limits = .ok e)
    (names : declaredNames declared = vars) (covered : ∀ x ∈ e.shape.vars, x ∈ vars)
    (settings : Settings) :
    run text declared settings none limits = .ok (ofParts e vars settings none) := by
  rw [run_eq_ok_iff, names]
  exact ⟨e, read, ofExpr_eq_ok_iff.mpr ⟨covered, none, rfl, rfl⟩⟩

theorem prove_of_covered (read : readExpr text limits = .ok e)
    (covered : ∀ x ∈ e.shape.vars, x ∈ declaredNames declared) :
    prove text declared goal limits = attemptProof e (declaredNames declared) goal limits := by
  rw [prove, read]
  simp only [TruthTable.requireDeclared_eq_ok_iff.mpr covered, diagnose, bind, Except.bind]

/-- **Proofs and tables agree.** Whatever the limits, the report in an analysis is the one that a
proof attempt gives alone, and the one of every attempt that ends, whatever its limit. Its verdict
is the one that the table of the analysis shows, and its counter-example is the assignment of one
row of that table, with the output that refutes the target. -/
theorem engines_agree (limits : Limits) (text : Option String) (declared : List String)
    (settings : Settings) (target : Target) (a : Analysis)
    (analysed : run text declared settings (some target) limits = .ok a) :
    ∃ report, a.report = some report ∧ prove text declared target limits = .ok report ∧
      (∀ limit report', Report.attemptWithin limit a.expr a.vars target = some report' →
        report' = report) ∧
      report.AgreesWith a.table a.vars target := by
  obtain ⟨e, read, analysed⟩ := run_eq_ok_iff.mp analysed
  obtain ⟨covered, attempted, outcome, rfl⟩ := ofExpr_eq_ok_iff.mp analysed
  obtain ⟨report, rfl, ended⟩ : ∃ report, attempted = some report ∧
      Report.attemptWithin limits.splits e (declaredNames declared) target = some report := by
    cases attempted with
    | none => cases outcome
    | some report => exact ⟨report, rfl, Option.some.inj outcome⟩
  refine ⟨report, rfl, ?_, fun limit report' ended' => ?_, ?_⟩
  · rw [prove_of_covered read covered]
    exact attemptProof_eq_ok_iff.mpr ended
  · exact Report.attemptWithin_unique ended' ended
  · exact Report.agreesWith_of_decides ended (TruthTable.decides_tableOf covered) covered
      (nodup_distinct _)

theorem engines_agree_implication : ∃ a report row,
    run (some "p -> q1") ["q1", " r", "P"] {} (some .implication) = .ok a ∧
      a.report = some report ∧
      prove (some "p -> q1") ["q1", " r", "P"] .implication = .ok report ∧
      report.proven = false ∧ a.table.classification ≠ .tautology ∧ row ∈ a.table.rows ∧
      report.counterExample = some (TruthTable.assignment row.index ["Q1", "R", "P"]) ∧
      row.values.get? "P → Q1" = some false := by
  have parsed : (readExpr (some "p -> q1")).toOption.map Expr.shape =
      some (.binary .implies (.var "P") (.var "Q1")) := by decide +kernel
  obtain ⟨e, read, shape⟩ := exists_readExpr_eq parsed
  have names : declaredNames ["q1", " r", "P"] = ["Q1", "R", "P"] := by decide +kernel
  have covered : ∀ x ∈ e.shape.vars, x ∈ declaredNames ["q1", " r", "P"] := by
    rw [shape, names]
    decide
  have small : e.shape.size ≤ Limits.usual.splits := by
    rw [shape]
    decide
  obtain ⟨report, ended⟩ :=
    Report.exists_attemptWithin (declaredNames ["q1", " r", "P"]) .implication small
  have analysed : run (some "p -> q1") ["q1", " r", "P"] {} (some .implication) =
      .ok (ofParts e (declaredNames ["q1", " r", "P"]) {} (some report)) :=
    run_eq_ok_iff.mpr ⟨e, read, ofExpr_eq_ok_iff.mpr ⟨covered, some report, congrArg some ended,
      rfl⟩⟩
  obtain ⟨report', same, proved, -, agrees⟩ := engines_agree _ _ _ _ _ _ analysed
  obtain rfl : report = report' := Option.some.inj same
  have refuted : report.proven = false := by
    rw [Bool.eq_false_iff, ne_eq,
      Report.proven_iff (Report.answers_attemptWithin (by decide) ended)]
    intro always
    have value := Formula.hasValue_iff.mp (always fun x => decide (x = "P"))
    rw [shape] at value
    exact absurd value (by decide)
  obtain ⟨m, row, found, mem, assigned, -, output⟩ := agrees.refutes (by decide) refuted
  refine ⟨_, report, row, analysed, rfl, proved, refuted, fun always => ?_, mem, ?_, ?_⟩
  · have proven := agrees.proven_iff.mpr always
    rw [refuted] at proven
    cases proven
  · rw [found, ← assigned, ← names]
    rfl
  · have key : e.shape.text = "P → Q1" := by
      rw [shape]
      decide
    rw [← key]
    exact output

end Analysis

end Sentential
