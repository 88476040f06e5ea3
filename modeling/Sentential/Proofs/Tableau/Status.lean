import Sentential.Proofs.Tableau.Decision
import Sentential.Proofs.Tableau.Log

/-!
# What the mark of a branch says

A finished proof tree can be asked in four ways whether it is closed: by the mark of its root, by
descending to closed branches, by the marks of its leaves, and by a search for a complete leaf. A
verdict uses one of them and a counter-example another. On a solved tree all of them agree, at the
root and at every branch below: a leaf is marked closed exactly if it ran into a contradiction, and
a branch that was split is marked by its two children.

## Main definitions

* `Branch.WellMarked` — the readings of a branch agree with its mark

## Main results

* `Branch.wellMarked_of_leaf`, `Branch.WellMarked.join` — leaves, and a branch above two others
* `Branch.throughout_wellMarked` — every branch of a solved tree
* `readings_agree` — the same for solved trees and for the tree of an equivalence
-/

namespace Sentential

open Relation

namespace Branch

variable {b c x y root : Branch} {start : OrderedMap Formula Bool} {pending : List Obligation}

/-! ### Leaves of a tree and of its children -/

theorem leaves_of_children_eq_nil (childless : b.children = []) : b.leaves = [b] := by
  obtain ⟨label, assignments, steps, status, contradiction, children⟩ := b
  cases childless
  rfl

theorem leaves_join (b x y : Branch) : (b.join [x, y]).leaves = x.leaves ++ y.leaves := by
  simp [join, leaves, leavesOf]

/-! ### Marks -/

/-- A branch is worked off; it is a leaf, closed exactly if it has a contradiction, or it has two
children; and the mark is what the leaves below and the search for a complete one say. -/
structure WellMarked (b : Branch) : Prop where
  finished : b.status ≠ .unfinished
  /-- A branch that was split did not close by itself. -/
  split : b.children ≠ [] → b.children.length = 2 ∧ b.contradiction = none
  leaf : b.children = [] → b.status = if b.contradiction.isSome then .closed else .complete
  closed_iff_isClosed : b.status = .closed ↔ b.isClosed = true
  closed_iff_leaves : b.status = .closed ↔ ∀ leaf ∈ b.leaves, leaf.status = .closed
  closed_iff_openLeaf? : b.status = .closed ↔ b.openLeaf? = none
  /-- The search finds the complete leaf that stands first. -/
  openLeaf?_eq : b.openLeaf? = b.leaves.find? fun leaf => decide (leaf.status = .complete)

theorem wellMarked_of_leaf (childless : b.children = [])
    (marked : b.status = if b.contradiction.isSome then .closed else .complete) :
    b.WellMarked := by
  have readings : b.leaves = [b] ∧ b.isClosed = decide (b.status = .closed) ∧
      b.openLeaf? = if b.status = .complete then some b else none :=
    ⟨leaves_of_children_eq_nil childless, isClosed_of_children_eq_nil childless,
      openLeaf?_of_children_eq_nil childless⟩
  obtain ⟨leaves, isClosed, openLeaf⟩ := readings
  have two : b.status = .closed ∨ b.status = .complete := by
    rw [marked]
    split
    · exact Or.inl rfl
    · exact Or.inr rfl
  refine ⟨?_, fun inner => absurd childless inner, fun _ => marked, ?_, ?_, ?_, ?_⟩
  all_goals rcases two with status | status <;> simp [leaves, isClosed, openLeaf, status]

/-- A branch above two others is marked closed if both of them are, and the first complete leaf is
that of the first child that has one. -/
theorem WellMarked.join (first : x.WellMarked) (second : y.WellMarked)
    (unbroken : b.contradiction = none) : (b.join [x, y]).WellMarked where
  finished := by
    unfold Branch.join
    dsimp only
    split <;> simp
  split _ := ⟨rfl, unbroken⟩
  leaf childless := absurd childless (List.cons_ne_nil _ _)
  closed_iff_isClosed := by
    simp only [status_join, isClosed_join, first.closed_iff_isClosed, second.closed_iff_isClosed,
      Bool.or_eq_true, decide_eq_true_eq, Bool.and_eq_true, or_self]
  closed_iff_leaves := by
    rw [status_join, leaves_join, List.forall_mem_append, first.closed_iff_leaves,
      second.closed_iff_leaves]
  closed_iff_openLeaf? := by
    rw [status_join, openLeaf?_join, Option.or_eq_none_iff, first.closed_iff_openLeaf?,
      second.closed_iff_openLeaf?]
  openLeaf?_eq := by
    rw [openLeaf?_join, leaves_join, List.find?_append, first.openLeaf?_eq, second.openLeaf?_eq]

/-- Two trees of well-marked branches make another one. -/
theorem throughout_wellMarked_join (unbroken : b.contradiction = none)
    (first : x.Throughout (fun _ => WellMarked) b.assignments)
    (second : y.Throughout (fun _ => WellMarked) b.assignments) :
    (b.join [x, y]).Throughout (fun _ => WellMarked) start := by
  refine throughout_join (first.1.join second.1 unbroken) fun c child => ?_
  rcases List.mem_pair.mp child with rfl | rfl
  · exact first
  · exact second

/-- Every branch of a solved tree is well marked. -/
theorem throughout_wellMarked (childless : b.children = [])
    (unbroken : b.contradiction = none) :
    (b.solve pending).Throughout (fun _ => WellMarked) start := by
  -- Until it ends or splits, a branch has neither children nor a contradiction.
  fun_induction solve b pending generalizing start with
  | case1 b =>
    exact throughout_of_leaf (wellMarked_of_leaf childless (by simp [unbroken])) childless
  | case2 b ob rest held ih => exact ih childless unbroken
  | case3 b ob rest previous held differ =>
    exact throughout_of_leaf (wellMarked_of_leaf childless rfl) childless
  | case4 b ob rest free obs all ih => exact ih childless unbroken
  | case5 b ob rest free first second either parent ihFirst =>
    rename_i ihSecond
    exact throughout_wellMarked_join unbroken (ihFirst rfl rfl) (ihSecond rfl rfl)

/-- What holds throughout a tree holds of every branch that is reached from its root. -/
theorem Throughout.of_reached {Q : Branch → Prop} (throughout : root.Throughout (fun _ => Q) start)
    (reached : ReflTransGen IsParent root b) : Q b := by
  rcases reached.cases_tail with rfl | ⟨parent, above, child⟩
  · exact throughout.1
  · exact throughout.2 parent b above child

end Branch

/-- **All readings of a proof tree agree.** In a tree that is solved from any assignments for any
obligations, and in the tree of an equivalence, every branch is worked off, and it is marked closed
exactly if the descent to closed branches, the marks of its leaves, and the search for a complete
leaf say so; that search finds the first complete leaf, if there is one. -/
theorem readings_agree :
    (∀ (initial : OrderedMap Formula Bool) (pending : List Obligation) (b : Branch),
      ReflTransGen Branch.IsParent (({ assignments := initial } : Branch).solve pending) b →
        b.WellMarked) ∧
    ∀ (limit : Nat) (e l r : Expr) (vars : List String) (report : Report),
      Report.ofEquivalence limit e l r vars = some report →
        ∀ b, ReflTransGen Branch.IsParent report.root b → b.WellMarked := by
  refine ⟨fun initial pending b reached => ?_, fun limit e l r vars report ended b reached => ?_⟩
  · have solved : (({ assignments := initial } : Branch).solve pending).Throughout
        (fun _ => Branch.WellMarked) initial := Branch.throughout_wellMarked rfl rfl
    exact solved.of_reached reached
  · unfold Report.ofEquivalence at ended
    dsimp only at ended
    split at ended
    · contradiction
    · rename_i x solvedX
      obtain ⟨y, solvedY, rfl⟩ := Option.map_eq_some_iff.mp ended
      rw [Branch.solveWithin_eq_solve solvedX, Branch.solveWithin_eq_solve solvedY] at reached
      refine Branch.Throughout.of_reached (?_ : Branch.Throughout _ .empty _) reached
      exact Branch.throughout_wellMarked_join rfl (Branch.throughout_wellMarked rfl rfl)
        (Branch.throughout_wellMarked rfl rfl)

/-- A formula is compared with its conjunction with another one. -/
def absorbedConjunction : Expr :=
  .binary {} .iff (.var {} "A") (.binary {} .and (.var {} "A") (.var {} "B"))

theorem readings_agree_absorbedConjunction :
    (∀ c ∈ (({} : Branch).solve [⟨absorbedConjunction, true⟩]).children,
      (c.status = .closed ↔ c.openLeaf? = none) ∧
        (c.isClosed = true ↔ ∀ leaf ∈ c.leaves, leaf.status = .closed)) ∧
    ∃ report, Report.attemptWithin 100 absorbedConjunction ["A", "B"] .equivalence = some report ∧
      report.root.openLeaf? =
        report.root.leaves.find? fun leaf => decide (leaf.status = .complete) := by
  have within : absorbedConjunction.shape.size ≤ 100 := by decide
  obtain ⟨report, ended⟩ := Report.exists_attemptWithin ["A", "B"] .equivalence within
  have solved := readings_agree.1 .empty [⟨absorbedConjunction, true⟩]
  have marked := readings_agree.2 100 absorbedConjunction _ _ _ report ended
  refine ⟨fun c child => ?_, report, ended, (marked _ .refl).openLeaf?_eq⟩
  have here := solved c (.single child)
  exact ⟨here.closed_iff_openLeaf?, here.closed_iff_isClosed.symm.trans here.closed_iff_leaves⟩

end Sentential
