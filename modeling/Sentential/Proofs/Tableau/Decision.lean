import Sentential.Proofs.Tableau.Saturation
import Sentential.Tableau.Report

/-!
# Tableaux decide validity

A valuation that meets all pending obligations survives every step of the search: it meets one of
the choices, so one child goes on with it. Hence a tree closes only if no valuation meets what it
was solved for. Together with the saturation of open leaves this makes every solved tree an answer
to the question whether a property of valuations can hold, and every report says what the answer to
its question is.

## Main definitions

* `Branch.Settles` — a tree answers whether a property of valuations can hold
* `Target.HoldsFor` — what a target says about a formula
* `Report.ReadsOff` — a report repeats what its tree says

## Main results

* `settles_solve`, `Settles.join` — solved trees, and two of them under one root
* `tableau_decides` — closed trees are unsatisfiable queues, and verdicts are truths
-/

namespace Sentential

namespace Branch

variable {b x y root : Branch} {pending : List Obligation} {v : String → Bool}
  {P Q : (String → Bool) → Prop} {names : List String}

/-- A valuation agrees with a branch if it gives every formula the assigned value. -/
def AgreesWith (b : Branch) (v : String → Bool) : Prop :=
  ∀ f x, b.assignments.get? f = some x → f.eval v = x

theorem AgreesWith.eval_of_held (agrees : b.AgreesWith v) {f : Formula} {x : Bool}
    (held : b.held? f = some x) : f.eval v = x := by
  rcases Tableau.held?_eq_some_iff.mp held with assigned | ⟨-, rfl⟩
  · exact agrees f x assigned
  · rfl

theorem AgreesWith.force (agrees : b.AgreesWith v) {ob : Obligation} (met : ob.MetBy v) :
    (b.force ob).AgreesWith v := by
  intro f x assigned
  rw [Branch.force, OrderedMap.get?_insert] at assigned
  split at assigned
  · rename_i same
    rw [← same, Obligation.metBy_iff.mp met]
    exact Option.some.inj assigned
  · exact agrees f x assigned

/-- A valuation that meets everything pending keeps one leaf open. -/
theorem status_solve_ne_closed (agrees : b.AgreesWith v) (met : ∀ ob ∈ pending, ob.MetBy v) :
    (b.solve pending).status ≠ .closed := by
  -- A conflict would contradict the valuation, and at a split it decides which child to follow.
  fun_induction solve b pending with
  | case1 b => simp
  | case2 b ob rest held ih => exact ih agrees fun o mem => met o (List.mem_cons_of_mem _ mem)
  | case3 b ob rest previous held differ =>
    have required := Obligation.metBy_iff.mp (met ob List.mem_cons_self)
    exact absurd ((agrees.eval_of_held held).symm.trans required) differ
  | case4 b ob rest free obs all ih =>
    obtain ⟨here, later⟩ := List.forall_mem_cons.mp met
    obtain ⟨new, offered, metNew⟩ := here.exists_choice
    rw [all, Consequences.choices, List.mem_singleton] at offered
    subst offered
    exact ih (agrees.force here) (List.forall_mem_append.mpr ⟨later, metNew⟩)
  | case5 b ob rest free first second either parent ihFirst ihSecond =>
    obtain ⟨here, later⟩ := List.forall_mem_cons.mp met
    obtain ⟨new, offered, metNew⟩ := here.exists_choice
    have carried := List.forall_mem_append.mpr ⟨later, metNew⟩
    simp only [either, Consequences.choices, List.mem_cons, List.not_mem_nil, or_false] at offered
    rw [ne_eq, status_join, not_and_or]
    rcases offered with rfl | rfl
    · exact Or.inl (ihFirst (agrees.force here) carried)
    · exact Or.inr (ihSecond (agrees.force here) carried)

/-- A tree settles whether a property of valuations can hold: it is closed if not, and otherwise its
open leaf gives values to some of the names that are enough for the property. -/
structure Settles (root : Branch) (names : List String) (P : (String → Bool) → Prop) : Prop where
  /-- The mark of the root tells whether the tree is closed. -/
  isClosed_eq : root.isClosed = decide (root.status = .closed)
  isSome_openLeaf? : root.openLeaf?.isSome = !root.isClosed
  not_of_isClosed : root.isClosed = true → ∀ v, ¬ P v
  mem_names : ∀ leaf, root.openLeaf? = some leaf → ∀ name x, (name, x) ∈ leaf.variableValues →
    name ∈ names
  holds_of_agrees : ∀ leaf, root.openLeaf? = some leaf → ∀ v,
    (∀ name x, (name, x) ∈ leaf.variableValues → v name = x) → P v

/-- An open leaf has a valuation that agrees with it, so a tree is closed only if it has to be. -/
theorem Settles.isClosed_iff (settles : root.Settles names P) :
    root.isClosed = true ↔ ¬ ∃ v, P v := by
  constructor
  · rintro isClosed ⟨v, holds⟩
    exact settles.not_of_isClosed isClosed v holds
  · intro impossible
    cases isClosed : root.isClosed with
    | true => rfl
    | false =>
      obtain ⟨leaf, found⟩ : ∃ leaf, root.openLeaf? = some leaf := by
        rw [← Option.isSome_iff_exists, settles.isSome_openLeaf?, isClosed]
        rfl
      -- Names without a value at the leaf may have either; here they are false.
      let v (name : String) : Bool := decide (leaf.assignments.get? (.var name) = some true)
      refine absurd ⟨v, settles.holds_of_agrees leaf found v fun name x mem => ?_⟩ impossible
      rw [mem_variableValues_iff] at mem
      cases x <;> simp [v, mem]

theorem Settles.congr (settles : root.Settles names P) (same : ∀ v, P v ↔ Q v) :
    root.Settles names Q :=
  (funext fun v => propext (same v) : P = Q) ▸ settles

/-- A solved tree settles whether everything that it was solved for can be met. -/
theorem settles_solve (childless : b.children = []) (start : b.assignments = .empty)
    (mentioned : ∀ ob ∈ pending, ob.expr.shape.vars ⊆ names) :
    (b.solve pending).Settles names (fun v => ∀ ob ∈ pending, ob.MetBy v) where
  isClosed_eq := isClosed_solve b pending childless
  isSome_openLeaf? := by
    rw [Bool.eq_iff_iff, openLeaf?_solve_isSome_iff b pending childless,
      isClosed_solve b pending childless, ← decide_not, decide_eq_true_eq]
  not_of_isClosed isClosed v met := by
    rw [isClosed_solve b pending childless, decide_eq_true_eq] at isClosed
    -- Nothing is assigned at the start, so every valuation agrees.
    have agrees : b.AgreesWith v := fun f x assigned => by simp [start] at assigned
    exact status_solve_ne_closed agrees met isClosed
  mem_names leaf found name x mem := by
    have only : Tableau.Point.MentionsOnly (· ∈ names) ⟨b.assignments, pending⟩ :=
      ⟨fun f x assigned => by simp [start] at assigned,
        fun ob mem name occurs => mentioned ob mem occurs⟩
    have moves := moves_of_openLeaf?_solve childless found
    exact (Tableau.mentionsOnly_of_moves moves only).assigned (.var name) x
      ((leaf.mem_variableValues_iff name x).mp mem) name (List.mem_singleton_self name)
  holds_of_agrees leaf found v agrees := metBy_of_openLeaf?_solve childless start found agrees

/-- Two trees under one root settle whether one of two properties can hold. -/
theorem Settles.join (settlesX : x.Settles names P) (settlesY : y.Settles names Q) :
    (b.join [x, y]).Settles names (fun v => P v ∨ Q v) := by
  have isClosed_eq : (b.join [x, y]).isClosed = (x.isClosed && y.isClosed) := by
    rw [isClosed_join, settlesX.isClosed_eq, settlesY.isClosed_eq]
    by_cases hx : x.status = .closed <;> by_cases hy : y.status = .closed <;> simp [hx, hy]
  refine ⟨?_, ?_, fun isClosed v holds => ?_, fun leaf found => ?_, fun leaf found v agrees => ?_⟩
  · rw [isClosed_eq, settlesX.isClosed_eq, settlesY.isClosed_eq, ← Bool.decide_and]
    exact decide_eq_decide.mpr (status_join b x y).symm
  · rw [openLeaf?_join, Option.isSome_or, settlesX.isSome_openLeaf?, settlesY.isSome_openLeaf?,
      isClosed_eq, Bool.not_and]
  · rw [isClosed_eq, Bool.and_eq_true] at isClosed
    rcases holds with holds | holds
    · exact settlesX.not_of_isClosed isClosed.1 v holds
    · exact settlesY.not_of_isClosed isClosed.2 v holds
  · rw [openLeaf?_join, Option.or_eq_some_iff] at found
    rcases found with found | ⟨-, found⟩
    · exact settlesX.mem_names leaf found
    · exact settlesY.mem_names leaf found
  · rw [openLeaf?_join, Option.or_eq_some_iff] at found
    rcases found with found | ⟨-, found⟩
    · exact Or.inl (settlesX.holds_of_agrees leaf found v agrees)
    · exact Or.inr (settlesY.holds_of_agrees leaf found v agrees)

end Branch

/-- What a target says about a formula. -/
def Target.HoldsFor (f : Formula) : Target → Prop
  | contradiction => ∀ v, f.HasValue v false
  | contingency => (∃ v, f.HasValue v true) ∧ ∃ v, f.HasValue v false
  | tautology | implication | equivalence => ∀ v, f.HasValue v true

namespace Report

variable {limit : Nat} {e l r : Expr} {vars names : List String} {target : Target} {title : String}
  {root : Branch} {report : Report} {P Q : (String → Bool) → Prop}

/-- A report answers whether a property of valuations can hold: it repeats what its tree says. -/
structure Answers (report : Report) (vars names : List String) (P : (String → Bool) → Prop) :
    Prop where
  settles : report.root.Settles names P
  proven_eq : report.proven = report.root.isClosed
  counterExample_eq : report.counterExample =
    report.root.openLeaf?.map fun leaf => complete leaf.variableValues vars
  forced_eq : report.forced = (report.root.openLeaf?.map fun leaf =>
    Token.sortedNames (leaf.variableValues.map Prod.fst)).getD []

theorem Answers.congr (answers : report.Answers vars names P) (same : ∀ v, P v ↔ Q v) :
    report.Answers vars names Q :=
  { answers with settles := answers.settles.congr same }

theorem Answers.withWarning (answers : report.Answers vars names P) (warning : Option String) :
    Answers { report with warning } vars names P :=
  ⟨answers.settles, answers.proven_eq, answers.counterExample_eq, answers.forced_eq⟩

theorem answers_ofTree (assumptions : List (String × Bool)) (provenText disprovenText : String)
    (settles : root.Settles names P) :
    (ofTree target title assumptions root vars provenText disprovenText).Answers vars names P := by
  -- A closed tree has no open leaf, so it makes no difference whether one is asked for.
  have leaf : (if root.isClosed then none else root.openLeaf?) = root.openLeaf? := by
    cases isClosed : root.isClosed with
    | false => rfl
    | true =>
      have isSome := settles.isSome_openLeaf?
      rw [isClosed, Bool.not_true, Option.isSome_eq_false_iff, Option.isNone_iff_eq_none] at isSome
      rw [isSome]
      rfl
  refine ⟨settles, rfl, ?_, ?_⟩
  · simp only [ofTree, leaf]
  · simp only [ofTree, leaf]

theorem answers_single (ended : single limit e vars target title = some report) :
    report.Answers vars e.shape.vars
      (fun v => e.shape.HasValue v (decide (target = .contradiction))) := by
  obtain ⟨root, solved, rfl⟩ := Option.map_eq_some_iff.mp ended
  rw [Branch.solveWithin_eq_solve solved]
  refine answers_ofTree _ _ _ ((Branch.settles_solve rfl rfl ?_).congr ?_)
  · simp
  · simp [Obligation.MetBy]

theorem answers_ofImplication (ended : ofImplication limit l r vars = some report) :
    report.Answers vars (l.shape.vars ++ r.shape.vars)
      (fun v => l.shape.HasValue v true ∧ r.shape.HasValue v false) := by
  obtain ⟨root, solved, rfl⟩ := Option.map_eq_some_iff.mp ended
  rw [Branch.solveWithin_eq_solve solved]
  refine answers_ofTree _ _ _ ((Branch.settles_solve rfl rfl ?_).congr ?_)
  · simp [Obligation.both]
  · simp [Obligation.both, Obligation.MetBy]

theorem answers_ofEquivalence (ended : ofEquivalence limit e l r vars = some report) :
    report.Answers vars (l.shape.vars ++ r.shape.vars)
      (fun v => (l.shape.HasValue v true ∧ r.shape.HasValue v false) ∨
        l.shape.HasValue v false ∧ r.shape.HasValue v true) := by
  unfold ofEquivalence at ended
  dsimp only at ended
  split at ended
  · contradiction
  · rename_i x solvedX
    obtain ⟨y, solvedY, rfl⟩ := Option.map_eq_some_iff.mp ended
    rw [Branch.solveWithin_eq_solve solvedX, Branch.solveWithin_eq_solve solvedY]
    refine answers_ofTree _ _ _ ((Branch.Settles.join
      (Branch.settles_solve rfl rfl ?_) (Branch.settles_solve rfl rfl ?_)).congr ?_)
    · simp [Obligation.both]
    · simp [Obligation.both]
    · simp [Obligation.both, Obligation.MetBy]

/-- Every attempt except that at a contingency asks whether the expression can take the value that
refutes the target. -/
theorem answers_attemptWithin (notContingency : target ≠ .contingency)
    (ended : attemptWithin limit e vars target = some report) :
    report.Answers vars e.shape.vars
      (fun v => e.shape.HasValue v (decide (target = .contradiction))) := by
  unfold attemptWithin at ended
  split at ended
  · contradiction
  · refine (answers_ofImplication ended).congr fun v => ?_
    simp only [Formula.hasValue_iff, Expr.shape, Formula.eval, Connective.apply]
    cases Formula.eval v _ <;> cases Formula.eval v _ <;> decide
  · refine (answers_ofEquivalence ended).congr fun v => ?_
    simp only [Formula.hasValue_iff, Expr.shape, Formula.eval, Connective.apply]
    cases Formula.eval v _ <;> cases Formula.eval v _ <;> decide
  · obtain ⟨inner, innerEnded, rfl⟩ := Option.map_eq_some_iff.mp ended
    exact (answers_single innerEnded).withWarning _
  · obtain ⟨inner, innerEnded, rfl⟩ := Option.map_eq_some_iff.mp ended
    exact (answers_single innerEnded).withWarning _
  · exact answers_single ended
  · exact answers_single ended

/-- An attempt at a contingency is one at a tautology, followed by one at a contradiction unless the
first is proven. -/
theorem ofContingency_eq_some (ended : ofContingency limit e vars = some report) :
    ∃ always, single limit e vars .tautology "Prove Tautology" = some always ∧
      (always.proven = true ∧ report.proven = false ∨
        always.proven = false ∧ ∃ never,
          single limit e vars .contradiction "Prove Absurdity (Contradiction)" = some never ∧
          (never.proven = true ∧ report.proven = false ∨
            never.proven = false ∧ report.proven = true ∧ report.witnesses =
              some ⟨always.counterExample.getD .empty, never.counterExample.getD .empty⟩)) := by
  simp only [ofContingency, Option.bind_eq_bind, Option.bind_eq_some_iff] at ended
  obtain ⟨always, endedAlways, ended⟩ := ended
  refine ⟨always, endedAlways, ?_⟩
  split at ended
  · rename_i proven
    cases ended
    exact Or.inl ⟨proven, rfl⟩
  · rename_i refuted
    rw [Option.bind_eq_some_iff] at ended
    obtain ⟨never, endedNever, ended⟩ := ended
    refine Or.inr ⟨Bool.eq_false_iff.mpr refuted, never, endedNever, ?_⟩
    split at ended
    · rename_i proven
      cases ended
      exact Or.inl ⟨proven, rfl⟩
    · rename_i possible
      cases ended
      exact Or.inr ⟨Bool.eq_false_iff.mpr possible, rfl, rfl⟩

theorem exists_single (vars : List String) (target : Target) (title : String)
    (within : e.shape.size ≤ limit) :
    ∃ report, single limit e vars target title = some report := by
  rw [single, Branch.solveWithin_eq_some_of_totalSize_le (by simpa [Obligation.totalSize,
    Obligation.size] using within)]
  exact ⟨_, rfl⟩

theorem solveWithin_both (b : Branch) (x y : Bool)
    (within : l.shape.size + r.shape.size ≤ limit) :
    b.solveWithin limit (Obligation.both l x r y) = some (b.solve (Obligation.both l x r y)) :=
  Branch.solveWithin_eq_some_of_totalSize_le (by
    simpa only [Obligation.both, Obligation.totalSize, Obligation.size, Nat.add_zero] using within)

/-- A limit of the number of nodes lets every attempt end. -/
theorem exists_attemptWithin (vars : List String) (target : Target)
    (within : e.shape.size ≤ limit) :
    ∃ report, attemptWithin limit e vars target = some report := by
  unfold attemptWithin
  split
  · obtain ⟨always, endedAlways⟩ := exists_single vars .tautology "Prove Tautology" within
    obtain ⟨never, endedNever⟩ :=
      exists_single vars .contradiction "Prove Absurdity (Contradiction)" within
    simp only [ofContingency, endedAlways, endedNever, Option.bind_eq_bind, Option.bind_some]
    split
    · exact ⟨_, rfl⟩
    · split <;> exact ⟨_, rfl⟩
  · rename_i m l r
    have operands : l.shape.size + r.shape.size ≤ limit := Nat.le_of_succ_le within
    rw [ofImplication, solveWithin_both _ _ _ operands]
    exact ⟨_, rfl⟩
  · rename_i m l r
    have operands : l.shape.size + r.shape.size ≤ limit := Nat.le_of_succ_le within
    simp only [ofEquivalence, solveWithin_both _ _ _ operands]
    exact ⟨_, rfl⟩
  · obtain ⟨report, ended⟩ := exists_single vars .tautology "Prove Tautology (Fallback)" within
    exact ⟨_, by rw [ended]; rfl⟩
  · obtain ⟨report, ended⟩ := exists_single vars .tautology "Prove Tautology (Fallback)" within
    exact ⟨_, by rw [ended]; rfl⟩
  · exact exists_single vars _ _ within
  · exact exists_single vars _ _ within

theorem proven_eq_false_iff (answers : report.Answers vars names
    (fun v => e.shape.HasValue v (decide (target = .contradiction)))) :
    report.proven = false ↔ ∃ v, e.shape.HasValue v (decide (target = .contradiction)) := by
  rw [← Bool.not_eq_true, answers.proven_eq, answers.settles.isClosed_iff, not_not]

/-- Every attempt except that at a contingency is proven if the value that refutes the target is
impossible. -/
theorem proven_iff (answers : report.Answers vars names
    (fun v => e.shape.HasValue v (decide (target = .contradiction)))) :
    report.proven = true ↔ ∀ v, e.shape.HasValue v (!decide (target = .contradiction)) := by
  rw [← Bool.not_eq_false, proven_eq_false_iff answers, not_exists]
  simp only [Formula.hasValue_not_iff]

/-- An attempt at a contingency is proven if both values are possible. -/
theorem proven_ofContingency_iff (ended : ofContingency limit e vars = some report) :
    report.proven = true ↔ (∃ v, e.shape.HasValue v true) ∧ ∃ v, e.shape.HasValue v false := by
  obtain ⟨always, endedAlways, outcome⟩ := ofContingency_eq_some ended
  have refutable : always.proven = false ↔ ∃ v, e.shape.HasValue v false :=
    proven_eq_false_iff (answers_single endedAlways)
  rcases outcome with ⟨proven, refuted⟩ | ⟨possible, never, endedNever, outcome⟩
  · simp [← refutable, proven, refuted]
  · have satisfiable : never.proven = false ↔ ∃ v, e.shape.HasValue v true :=
      proven_eq_false_iff (answers_single endedNever)
    rw [← satisfiable, ← refutable]
    rcases outcome with ⟨proven, refuted⟩ | ⟨satisfied, proven, -⟩ <;> simp [*]

/-- An attempt that ends proves its target exactly when the target holds. -/
theorem proven_iff_holdsFor (ended : attemptWithin limit e vars target = some report) :
    report.proven = true ↔ target.HoldsFor e.shape := by
  by_cases contingency : target = .contingency
  · subst contingency
    exact proven_ofContingency_iff ended
  · rw [proven_iff (answers_attemptWithin contingency ended)]
    cases target with
    | contingency => contradiction
    | tautology | contradiction | implication | equivalence => rfl

end Report

/-- **Tableaux decide validity.** A solved tree is closed exactly when no valuation meets all
obligations of its queue. Whatever the limit on nested splits, an attempt that ends proves its
target exactly when the target holds for the expression. -/
theorem tableau_decides :
    (∀ (label : String) (steps : List Step) (queue : List Obligation),
      (({ label, steps } : Branch).solve queue).status = .closed ↔
        ¬ ∃ v : String → Bool, ∀ ob ∈ queue, ob.MetBy v) ∧
    ∀ (limit : Nat) (e : Expr) (vars : List String) (target : Target) (report : Report),
      Report.attemptWithin limit e vars target = some report →
        (report.proven = true ↔ target.HoldsFor e.shape) := by
  refine ⟨fun label steps queue => ?_, fun limit e vars target report ended => ?_⟩
  · have settles : (({ label, steps } : Branch).solve queue).Settles
        (queue.flatMap fun ob => ob.expr.shape.vars) (fun v => ∀ ob ∈ queue, ob.MetBy v) :=
      Branch.settles_solve rfl rfl fun ob mem name occurs =>
        List.mem_flatMap.mpr ⟨ob, mem, occurs⟩
    rw [← settles.isClosed_iff, settles.isClosed_eq, decide_eq_true_eq]
  · exact Report.proven_iff_holdsFor ended

/-- The law of contraposition. -/
def contraposition : Expr :=
  .binary {} .implies (.binary {} .implies (.var {} "A") (.var {} "B"))
    (.binary {} .implies (.not {} (.var {} "B")) (.not {} (.var {} "A")))

theorem tableau_decides_contraposition :
    ∃ report, Report.attemptWithin 100 contraposition ["A", "B"] .implication = some report ∧
      report.proven = true := by
  have within : contraposition.shape.size ≤ 100 := by decide
  obtain ⟨report, ended⟩ := Report.exists_attemptWithin ["A", "B"] .implication within
  refine ⟨report, ended, (tableau_decides.2 _ _ _ _ _ ended).mpr fun v => ?_⟩
  rw [Formula.hasValue_iff]
  simp only [contraposition, Expr.shape, Formula.eval, Connective.apply]
  cases v "A" <;> cases v "B" <;> rfl

end Sentential
