import Mathlib.Data.List.Perm.Subperm
import Sentential.Proofs.Formula.Subformulas
import Sentential.Proofs.Tableau.Log

/-!
# How deep splits nest

Every step of the search replaces an obligation by smaller ones, so no run of it goes on for ever,
and no limit is needed to make it end. A split assigns a binary formula that held no value, and what
it adds to the queue are obligations on parts of that formula. So each split on the way to a leaf
uses up one of the binary subformulas of the queue that had no value at the start, however often
that subformula occurs.

## Main definitions

* `Tableau.Point.undecided` — the binary subformulas of the queue that hold no value
* `Branch.SplitsWithin` — no path from the root is longer than a number

## Main results

* `Tableau.Move.totalSize_lt`, `Tableau.length_le_of_run` — what a step costs, and how long runs are
* `Tableau.length_undecided_lt_of_split` — a split leaves fewer formulas undecided
* `Branch.search_ends` — the search ends, and the undecided formulas bound its depth
-/

namespace Sentential

namespace Tableau

variable {p q : Point} {values : OrderedMap Formula Bool} {ob : Obligation}
  {rest new first second : List Obligation} {f : Formula}

/-- A step of the search makes the queue smaller. -/
theorem Move.totalSize_lt (move : Move p q) :
    Obligation.totalSize q.pending < Obligation.totalSize p.pending := by
  cases move with
  | @drop values ob rest held =>
    change Obligation.totalSize rest < Obligation.totalSize (ob :: rest)
    rw [Obligation.totalSize_cons]
    exact Nat.lt_add_of_pos_left ob.size_pos
  | @assign values ob rest new free offered =>
    have smaller : Obligation.totalSize new < ob.size := by
      cases required : ob.consequences with
      | all obs =>
        rw [required, Consequences.choices, List.mem_singleton] at offered
        rw [offered]
        exact Obligation.totalSize_lt_of_all required
      | either first second =>
        have less := Obligation.totalSize_lt_of_either required
        rw [required] at offered
        rcases List.mem_pair.mp offered with rfl | rfl
        · exact less.1
        · exact less.2
    change Obligation.totalSize (rest ++ new) < Obligation.totalSize (ob :: rest)
    rw [Obligation.totalSize_append, Obligation.totalSize_cons]
    omega

/-- A run of the search has at most as many steps as the queue has nodes. -/
theorem length_le_of_run {run : List Point} (steps : List.IsChain Move (p :: run)) :
    run.length ≤ Obligation.totalSize p.pending := by
  induction run generalizing p with
  | nil => exact Nat.zero_le _
  | cons q run ih =>
    rw [List.isChain_cons_cons] at steps
    have smaller := steps.1.totalSize_lt
    have later := ih steps.2
    rw [List.length_cons]
    omega

/-- The binary formulas that hold no value and occur in what is pending, each of them once. -/
def Point.undecided (p : Point) : List Formula :=
  distinct ((p.pending.flatMap fun ob => ob.expr.shape.subformulas).filter fun f =>
    f.isBinary && decide (f ∉ p.values.keys))

theorem Point.mem_undecided : f ∈ p.undecided ↔
    (∃ ob ∈ p.pending, f ∈ ob.expr.shape.subformulas) ∧ f.isBinary = true ∧
      f ∉ p.values.keys := by
  rw [undecided, mem_distinct, List.mem_filter, List.mem_flatMap, Bool.and_eq_true,
    decide_eq_true_iff]

/-- A step of the search leaves nothing undecided that was not so before. -/
theorem Move.undecided_subset (move : Move p q) : q.undecided ⊆ p.undecided := by
  intro f undecided
  rw [Point.mem_undecided] at undecided ⊢
  obtain ⟨⟨o, mem, occurs⟩, binary, unassigned⟩ := undecided
  cases move with
  | drop held => exact ⟨⟨o, List.mem_cons_of_mem _ mem, occurs⟩, binary, unassigned⟩
  | @assign values ob rest new free offered =>
    have before : f ∉ values.keys := fun assigned =>
      unassigned ((OrderedMap.mem_keys_insert values _ f _).mpr (Or.inr assigned))
    refine ⟨?_, binary, before⟩
    rcases List.mem_append.mp mem with old | added
    · exact ⟨o, List.mem_cons_of_mem _ old, occurs⟩
    · -- A new obligation is on an operand, whose subformulas the formula has itself.
      have operand := Obligation.shape_mem_operands_of_choice offered added
      refine ⟨ob, List.mem_cons_self, ?_⟩
      rw [Formula.subformulas_eq]
      exact List.mem_append_left _ (List.mem_flatMap.mpr ⟨_, operand, occurs⟩)

theorem length_undecided_le_of_move (move : Move p q) :
    q.undecided.length ≤ p.undecided.length :=
  ((nodup_distinct _).subperm move.undecided_subset).length_le

/-- Only a binary formula offers two choices. -/
theorem isBinary_of_either (either : ob.consequences = .either first second) :
    ob.expr.shape.isBinary = true := by
  obtain ⟨e, value⟩ := ob
  cases e with
  | var | const | not => cases either
  | binary => rfl

/-- A split decides a formula that was undecided. -/
theorem length_undecided_lt_of_split (rest : List Obligation)
    (free : held? values ob.expr.shape = none) (either : ob.consequences = .either first second)
    (offered : new ∈ ob.consequences.choices) :
    (Point.undecided ⟨values.insert ob.expr.shape ob.value, rest ++ new⟩).length <
      (Point.undecided ⟨values, ob :: rest⟩).length := by
  have move : Move ⟨values, ob :: rest⟩ ⟨values.insert ob.expr.shape ob.value, rest ++ new⟩ :=
    .assign free offered
  have decided : ob.expr.shape ∉
      Point.undecided ⟨values.insert ob.expr.shape ob.value, rest ++ new⟩ := by
    rw [Point.mem_undecided]
    rintro ⟨-, -, unassigned⟩
    exact unassigned ((OrderedMap.mem_keys_insert values _ _ _).mpr (Or.inl rfl))
  have undecided : ob.expr.shape ∈ Point.undecided ⟨values, ob :: rest⟩ :=
    Point.mem_undecided.mpr ⟨⟨ob, List.mem_cons_self, Formula.mem_subformulas_self _⟩,
      isBinary_of_either either, (Branch.free_of_held? free).1⟩
  have apart : (ob.expr.shape ::
      Point.undecided ⟨values.insert ob.expr.shape ob.value, rest ++ new⟩).Nodup :=
    List.nodup_cons.mpr ⟨decided, nodup_distinct _⟩
  exact (apart.subperm (List.cons_subset.mpr ⟨undecided, move.undecided_subset⟩)).length_le

end Tableau

namespace Branch

open Tableau

variable {b root : Branch} {pending : List Obligation} {children : List Branch} {limit n m : Nat}

/-- The bounded search ends if the limit is not below the number of undecided formulas. -/
theorem solveWithin_eq_some_of_undecided_le
    (within : (Point.undecided ⟨b.assignments, pending⟩).length ≤ limit) :
    b.solveWithin limit pending = some (b.solve pending) := by
  fun_induction solveWithin limit b pending with
  | case1 limit b => rw [solve_nil]
  | case2 limit b ob rest held ih =>
    rw [solve_of_held held]
    exact ih ((length_undecided_le_of_move (.drop held)).trans within)
  | case3 limit b ob rest previous held differ => rw [solve_of_conflict held differ]
  | case4 limit b ob rest free obs all ih =>
    have offered : obs ∈ ob.consequences.choices := by simp [all, Consequences.choices]
    rw [solve_of_all free all]
    exact ih ((length_undecided_le_of_move (.assign free offered)).trans within)
  | case5 b ob rest free first second either =>
    -- The formula of the split is undecided, so the limit is not zero.
    have offered : first ∈ ob.consequences.choices := by simp [either, Consequences.choices]
    have fewer := length_undecided_lt_of_split rest free either offered
    exact absurd (fewer.trans_le within) (Nat.not_lt_zero _)
  | case6 b ob rest free first second either limit parent stopped ih =>
    have offered : first ∈ ob.consequences.choices := by simp [either, Consequences.choices]
    have fewer := length_undecided_lt_of_split rest free either offered
    rw [ih (Nat.le_of_lt_succ (fewer.trans_le within))] at stopped
    contradiction
  | case7 b ob rest free first second either limit parent x ranFirst stopped ihFirst =>
    rename_i ihSecond
    have offered : second ∈ ob.consequences.choices := by simp [either, Consequences.choices]
    have fewer := length_undecided_lt_of_split rest free either offered
    rw [ihSecond (Nat.le_of_lt_succ (fewer.trans_le within))] at stopped
    contradiction
  | case8 b ob rest free first second either limit parent x ranFirst y ranSecond =>
    rw [solve_of_either free either, ← solveWithin_eq_solve ranFirst,
      ← solveWithin_eq_solve ranSecond]

/-- On every path from the root at most a number of branches are split. -/
def SplitsWithin (n : Nat) (root : Branch) : Prop :=
  ∀ path, List.IsChain IsParent (root :: path) → path.length ≤ n

theorem SplitsWithin.mono (splits : root.SplitsWithin n) (le : n ≤ m) : root.SplitsWithin m :=
  fun path chain => (splits path chain).trans le

theorem splitsWithin_of_leaf (leaf : root.children = []) : root.SplitsWithin n := by
  rintro (_ | ⟨c, path⟩) chain
  · exact Nat.zero_le _
  · rw [List.isChain_cons_cons, IsParent, leaf] at chain
    cases chain.1

theorem splitsWithin_join (below : ∀ c ∈ children, c.SplitsWithin n) :
    (b.join children).SplitsWithin (n + 1) := by
  rintro (_ | ⟨c, path⟩) chain
  · exact Nat.zero_le _
  · rw [List.isChain_cons_cons] at chain
    exact Nat.succ_le_succ (below c chain.1 path chain.2)

/-- The undecided formulas bound the nesting of splits in a solved tree. -/
theorem splitsWithin_solve (childless : b.children = []) :
    (b.solve pending).SplitsWithin (Point.undecided ⟨b.assignments, pending⟩).length := by
  fun_induction solve b pending with
  | case1 b => exact splitsWithin_of_leaf childless
  | case2 b ob rest held ih =>
    exact (ih childless).mono (length_undecided_le_of_move (.drop held))
  | case3 b ob rest previous held differ => exact splitsWithin_of_leaf childless
  | case4 b ob rest free obs all ih =>
    have offered : obs ∈ ob.consequences.choices := by simp [all, Consequences.choices]
    exact (ih childless).mono (length_undecided_le_of_move (.assign free offered))
  | case5 b ob rest free first second either parent ihFirst ihSecond =>
    have offersFirst : first ∈ ob.consequences.choices := by simp [either, Consequences.choices]
    have offersSecond : second ∈ ob.consequences.choices := by simp [either, Consequences.choices]
    have fewerFirst := length_undecided_lt_of_split rest free either offersFirst
    have fewerSecond := length_undecided_lt_of_split rest free either offersSecond
    set undecided := (Point.undecided ⟨b.assignments, ob :: rest⟩).length with cut
    obtain ⟨fewer, more⟩ : ∃ fewer, undecided = fewer + 1 :=
      Nat.exists_eq_add_one_of_ne_zero (Nat.ne_zero_of_lt fewerFirst)
    rw [more] at fewerFirst fewerSecond ⊢
    refine splitsWithin_join ?_
    simp only [List.mem_cons, List.not_mem_nil, or_false, forall_eq_or_imp, forall_eq]
    exact ⟨(ihFirst rfl).mono (Nat.le_of_lt_succ fewerFirst),
      (ihSecond rfl).mono (Nat.le_of_lt_succ fewerSecond)⟩

/-- **The search ends, and splits nest no deeper than there are formulas to split on.** Let a tree
be solved from any assignments for any obligations. No run of the search has more steps than the
queue has nodes. On a path from the root there are at most as many splits as the queue has distinct
binary subformulas without a value; hence a limit of that number or more is never met. -/
theorem search_ends (initial : OrderedMap Formula Bool) (pending : List Obligation) :
    (∀ run, List.IsChain Move (⟨initial, pending⟩ :: run) →
      run.length ≤ Obligation.totalSize pending) ∧
    (({ assignments := initial } : Branch).solve pending).SplitsWithin
      (Point.undecided ⟨initial, pending⟩).length ∧
    ∀ limit, (Point.undecided ⟨initial, pending⟩).length ≤ limit →
      ({ assignments := initial } : Branch).solveWithin limit pending =
        some (({ assignments := initial } : Branch).solve pending) :=
  ⟨fun _ steps => length_le_of_run steps, splitsWithin_solve rfl,
    fun _ within => solveWithin_eq_some_of_undecided_le within⟩

/-- The implication `A → B` holds; `A ∨ B` is to be true twice and `A ∧ B` false. -/
def exclusiveUnderImplication : List Obligation :=
  let a : Expr := .var {} "A"
  let b : Expr := .var {} "B"
  [⟨.binary {} .implies a b, true⟩, ⟨.binary ⟨4, 1⟩ .or a b, true⟩,
    ⟨.not {} (.binary {} .and a b), true⟩, ⟨.binary {} .or a b, true⟩]

theorem search_ends_exclusiveUnderImplication :
    let initial := OrderedMap.empty.insert (.binary .implies (.var "A") (.var "B")) true
    Point.undecided ⟨initial, exclusiveUnderImplication⟩ =
        [.binary .or (.var "A") (.var "B"), .binary .and (.var "A") (.var "B")] ∧
      (({ assignments := initial } : Branch).solve exclusiveUnderImplication).SplitsWithin 2 ∧
      ({ assignments := initial } : Branch).solveWithin 2 exclusiveUnderImplication =
        some (({ assignments := initial } : Branch).solve exclusiveUnderImplication) ∧
      ∀ run, List.IsChain Move (⟨initial, exclusiveUnderImplication⟩ :: run) → run.length ≤ 13 := by
  intro initial
  have undecided : Point.undecided ⟨initial, exclusiveUnderImplication⟩ =
      [.binary .or (.var "A") (.var "B"), .binary .and (.var "A") (.var "B")] := by decide
  obtain ⟨runs, splits, ends⟩ := search_ends initial exclusiveUnderImplication
  rw [undecided] at splits ends
  exact ⟨undecided, splits, ends 2 (Nat.le_refl _), runs⟩

end Branch

end Sentential
