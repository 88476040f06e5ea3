import Sentential.Proofs.Tableau.Decision

/-!
# Counter-examples

A disproven report completes the values of its open leaf to an assignment of all listed variables.
Saturation makes the values of the leaf sufficient, so the completed assignment refutes the target,
and so does every other assignment of the listed variables that keeps the forced ones. The two
witnesses of a contingency are the counter-examples of its two attempts.

## Main results

* `mem_keys_complete`, `get?_complete` — what completing the values of a leaf gives
* `Answers.eval?_of_agrees` — the forced variables are enough
* `counterExample_refutes` — counter-examples and witnesses are real
-/

namespace Sentential

theorem OrderedMap.foldl_insertIfAbsent_of_contains {m : OrderedMap String Bool}
    {l : List (String × Bool)} (present : ∀ e ∈ l, e.1 ∈ m.keys) :
    l.foldl (fun m e => m.insertIfAbsent e.1 e.2) m = m := by
  induction l with
  | nil => rfl
  | cons e rest ih =>
    have kept : m.insertIfAbsent e.1 e.2 = m := by
      rw [insertIfAbsent, contains, if_pos (decide_eq_true (present e List.mem_cons_self))]
    rw [List.foldl_cons, kept]
    exact ih fun e' mem => present e' (List.mem_cons_of_mem _ mem)

namespace Report

variable {limit : Nat} {e : Expr} {vars names : List String} {target : Target} {report : Report}
  {values : List (String × Bool)} {name : String} {x : Bool} {m : OrderedMap String Bool}
  {P : (String → Bool) → Prop}

/-- The value that a listed variable gets. -/
def completedValue (values : List (String × Bool)) (name : String) : Bool :=
  ((OrderedMap.ofList values).get? name).getD false

/-- The listed variables with their values. -/
def listed (values : List (String × Bool)) (vars : List String) : OrderedMap String Bool :=
  .ofList (vars.map fun name => (name, completedValue values name))

theorem get?_listed (mem : name ∈ vars) :
    (listed values vars).get? name = some (completedValue values name) := by
  refine OrderedMap.get?_insertMany_of_unique _ _ (fun y written => ?_) (Or.inl ?_)
  · obtain ⟨name', -, same⟩ := List.mem_map.mp written
    cases same
    rfl
  · exact List.mem_map.mpr ⟨name, mem, rfl⟩

theorem mem_keys_listed : name ∈ (listed values vars).keys ↔ name ∈ vars := by
  rw [OrderedMap.mem_keys_iff]
  by_cases mem : name ∈ vars
  · simp [get?_listed mem, mem]
  · have unwritten : (listed values vars).get? name = (OrderedMap.empty).get? name := by
      refine OrderedMap.get?_insertMany_of_notMem _ _ fun y written => ?_
      obtain ⟨name', mem', same⟩ := List.mem_map.mp written
      cases same
      exact mem mem'
    simp [unwritten, mem]

/-- Values of listed variables add nothing behind the listed variables. -/
theorem complete_eq_listed (among : ∀ name x, (name, x) ∈ values → name ∈ vars) :
    complete values vars = listed values vars :=
  OrderedMap.foldl_insertIfAbsent_of_contains fun e mem =>
    mem_keys_listed.mpr (among e.1 e.2 mem)

/-- Given values are kept. -/
theorem get?_complete (among : ∀ name x, (name, x) ∈ values → name ∈ vars)
    (functional : ∀ y, (name, y) ∈ values → y = x) (mem : (name, x) ∈ values) :
    (complete values vars).get? name = some x := by
  rw [complete_eq_listed among, get?_listed (among name x mem), completedValue, OrderedMap.ofList,
    OrderedMap.get?_insertMany_of_unique _ _ functional (Or.inl mem), Option.getD_some]

/-- A report gives a counter-example exactly if it is disproven. -/
theorem Answers.isSome_counterExample (answers : report.Answers vars names P) :
    report.counterExample.isSome = !report.proven := by
  rw [answers.counterExample_eq, Option.isSome_map, answers.settles.isSome_openLeaf?,
    answers.proven_eq]

theorem Answers.exists_counterExample (answers : report.Answers vars names P)
    (refuted : report.proven = false) : ∃ m, report.counterExample = some m := by
  rw [← Option.isSome_iff_exists, answers.isSome_counterExample, refuted]
  rfl

theorem Answers.mem_keys_counterExample (answers : report.Answers vars names P)
    (covered : names ⊆ vars) (found : report.counterExample = some m) :
    name ∈ m.keys ↔ name ∈ vars := by
  rw [answers.counterExample_eq] at found
  obtain ⟨leaf, openLeaf, rfl⟩ := Option.map_eq_some_iff.mp found
  rw [complete_eq_listed fun name x mem =>
    covered (answers.settles.mem_names leaf openLeaf name x mem), mem_keys_listed]

/-- Every assignment of the listed variables that keeps the forced ones gives the value that was
asked for. -/
theorem Answers.eval?_of_agrees {b : Bool}
    (answers : report.Answers vars e.shape.vars fun v => e.shape.HasValue v b)
    (covered : e.shape.vars ⊆ vars) (found : report.counterExample = some m)
    {σ : String → Option Bool} (bound : ∀ name ∈ vars, (σ name).isSome)
    (agrees : ∀ name ∈ report.forced, σ name = m.get? name) : e.shape.eval? σ = .ok b := by
  have forced_eq := answers.forced_eq
  rw [answers.counterExample_eq] at found
  obtain ⟨leaf, openLeaf, rfl⟩ := Option.map_eq_some_iff.mp found
  rw [openLeaf, Option.map_some, Option.getD_some] at forced_eq
  have total : ∀ name ∈ e.shape.vars, σ name = some ((σ name).getD false) := by
    intro name occurs
    obtain ⟨x, value⟩ := Option.isSome_iff_exists.mp (bound name (covered occurs))
    rw [value, Option.getD_some]
  rw [Formula.eval?_eq_ok e.shape total, Except.ok.injEq, ← Formula.hasValue_iff]
  refine answers.settles.holds_of_agrees leaf openLeaf _ fun name x mem => ?_
  have isForced : name ∈ report.forced := by
    rw [forced_eq, Token.mem_sortedNames]
    exact List.mem_map.mpr ⟨(name, x), mem, rfl⟩
  have kept : (complete leaf.variableValues vars).get? name = some x := by
    refine get?_complete (fun name x mem =>
      covered (answers.settles.mem_names leaf openLeaf name x mem)) (fun y other => ?_) mem
    rw [Branch.mem_variableValues_iff] at mem other
    exact Option.some.inj (other.symm.trans mem)
  rw [agrees name isForced, kept, Option.getD_some]

/-- The counter-example itself gives the value that was asked for. -/
theorem Answers.eval?_counterExample {b : Bool}
    (answers : report.Answers vars e.shape.vars fun v => e.shape.HasValue v b)
    (covered : e.shape.vars ⊆ vars) (found : report.counterExample = some m) :
    e.shape.eval? m.get? = .ok b := by
  refine answers.eval?_of_agrees covered found (fun name listed => ?_) fun _ _ => rfl
  rw [← OrderedMap.mem_keys_iff]
  exact (answers.mem_keys_counterExample covered found).mpr listed

end Report

/-- **Counter-examples are real, and variables that are not forced are free.** -/
theorem counterExample_refutes (limit : Nat) (e : Expr) (vars : List String) (target : Target)
    (report : Report) (covered : ∀ name ∈ e.shape.vars, name ∈ vars)
    (ended : Report.attemptWithin limit e vars target = some report) :
    (target ≠ .contingency →
      (report.proven = false ↔ report.counterExample ≠ none) ∧
      ∀ m, report.counterExample = some m →
        (∀ name, name ∈ m.keys ↔ name ∈ vars) ∧
        e.shape.eval? m.get? = .ok (decide (target = .contradiction)) ∧
        ∀ σ : String → Option Bool, (∀ name ∈ vars, (σ name).isSome) →
          (∀ name ∈ report.forced, σ name = m.get? name) →
          e.shape.eval? σ = .ok (decide (target = .contradiction))) ∧
    (target = .contingency → report.proven = true →
      ∃ witnesses, report.witnesses = some witnesses ∧
        e.shape.eval? witnesses.falsifying.get? = .ok false ∧
        e.shape.eval? witnesses.satisfying.get? = .ok true) := by
  refine ⟨fun notContingency => ?_, fun contingency proven => ?_⟩
  · have answers := Report.answers_attemptWithin notContingency ended
    refine ⟨?_, fun m found => ⟨fun name => answers.mem_keys_counterExample covered found,
      answers.eval?_counterExample covered found, fun σ bound agrees =>
        answers.eval?_of_agrees covered found bound agrees⟩⟩
    rw [← Option.isSome_iff_ne_none, answers.isSome_counterExample, Bool.not_eq_true']
  · subst contingency
    obtain ⟨always, endedAlways, ⟨-, refuted⟩ | ⟨possible, never, endedNever, outcome⟩⟩ :=
      Report.ofContingency_eq_some ended
    · rw [refuted] at proven
      contradiction
    · obtain ⟨-, refuted⟩ | ⟨satisfiable, -, witnesses⟩ := outcome
      · rw [refuted] at proven
        contradiction
      · have answersAlways := Report.answers_single endedAlways
        have answersNever := Report.answers_single endedNever
        obtain ⟨falsifying, foundFalsifying⟩ := answersAlways.exists_counterExample possible
        obtain ⟨satisfying, foundSatisfying⟩ := answersNever.exists_counterExample satisfiable
        rw [foundFalsifying, foundSatisfying] at witnesses
        exact ⟨_, witnesses, answersAlways.eval?_counterExample covered foundFalsifying,
          answersNever.eval?_counterExample covered foundSatisfying⟩

/-- A disjunction implies its first part, which is neither valid nor impossible. -/
def firstOfDisjunction : Expr :=
  .binary {} .implies (.binary {} .or (.var {} "A") (.var {} "B")) (.var {} "A")

theorem counterExample_refutes_firstOfDisjunction :
    (∃ report m,
      Report.attemptWithin 100 firstOfDisjunction ["A", "B", "C"] .implication = some report ∧
      report.counterExample = some m ∧ firstOfDisjunction.shape.eval? m.get? = .ok false) ∧
    ∃ report witnesses,
      Report.attemptWithin 100 firstOfDisjunction ["A", "B", "C"] .contingency = some report ∧
      report.witnesses = some witnesses ∧
      firstOfDisjunction.shape.eval? witnesses.falsifying.get? = .ok false ∧
      firstOfDisjunction.shape.eval? witnesses.satisfying.get? = .ok true := by
  have within : firstOfDisjunction.shape.size ≤ 100 := by decide
  have covered : ∀ name ∈ firstOfDisjunction.shape.vars, name ∈ ["A", "B", "C"] := by decide
  have falsified : firstOfDisjunction.shape.HasValue (fun name => decide (name = "B")) false :=
    Formula.hasValue_iff.mpr (by decide)
  have satisfied : firstOfDisjunction.shape.HasValue (fun _ => true) true :=
    Formula.hasValue_iff.mpr (by decide)
  constructor
  · obtain ⟨report, ended⟩ :=
      Report.exists_attemptWithin ["A", "B", "C"] .implication within
    have holds := (counterExample_refutes _ _ _ _ _ covered ended).1 (by decide)
    have answers := Report.answers_attemptWithin (by decide) ended
    have refuted : report.proven = false := by
      rw [Bool.eq_false_iff, ne_eq, Report.proven_iff answers]
      exact fun always => Formula.hasValue_not_iff.mp (always _) falsified
    obtain ⟨m, found⟩ := answers.exists_counterExample refuted
    exact ⟨report, m, ended, found, (holds.2 m found).2.1⟩
  · obtain ⟨report, ended⟩ :=
      Report.exists_attemptWithin ["A", "B", "C"] .contingency within
    have proven := (Report.proven_ofContingency_iff ended).mpr ⟨⟨_, satisfied⟩, _, falsified⟩
    obtain ⟨witnesses, found, values⟩ :=
      (counterExample_refutes _ _ _ _ _ covered ended).2 rfl proven
    exact ⟨report, witnesses, ended, found, values⟩

end Sentential
