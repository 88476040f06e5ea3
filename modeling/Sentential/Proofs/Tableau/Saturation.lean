import Sentential.Proofs.Tableau.Search

/-!
# Open leaves are saturated

At an open leaf nothing is pending, and every assigned value is justified by values of the operands.
The values of the variables therefore determine all others: a valuation that agrees with the leaf on
the variables gives every formula the value that the leaf assigns to it. Since an obligation that
the search took over is never lost, such a valuation meets all obligations of the start.

## Main definitions

* `Point.Accounts` — an obligation is held or pending
* `Point.Justified` — every assigned value has a choice that is accounted for
* `Point.MentionsOnly` — all variables in sight belong to a given set

## Main results

* `Justified.metBy` — on a saturated leaf the variables determine the rest
* `metBy_of_openLeaf?_solve` — the open leaf of a solved tree meets what the tree was asked for
-/

namespace Sentential

namespace Tableau

open Relation

variable {p q : Point} {ob : Obligation} {v : String → Bool}

/-- An obligation is accounted for if its formula holds the value or if it is still pending. -/
def Point.Accounts (p : Point) (ob : Obligation) : Prop :=
  held? p.values ob.expr.shape = some ob.value ∨ ob ∈ p.pending

/-- No constant is assigned, and every assigned value has a choice that is accounted for. -/
structure Point.Justified (p : Point) : Prop where
  const_free : ∀ x, p.values.get? (.const x) = none
  choice : ∀ f x, p.values.get? f = some x → ∃ ob : Obligation, ob.expr.shape = f ∧ ob.value = x ∧
    ∃ new ∈ ob.consequences.choices, ∀ o ∈ new, p.Accounts o

/-- Only variables of the given set occur in what is assigned or pending. -/
structure Point.MentionsOnly (names : String → Prop) (p : Point) : Prop where
  assigned : ∀ f x, p.values.get? f = some x → ∀ name ∈ f.vars, names name
  pending : ∀ ob ∈ p.pending, ∀ name ∈ ob.expr.shape.vars, names name

/-! ### What one move keeps -/

/-- A move never loses an obligation. -/
theorem Move.accounts (move : Move p q) (counted : p.Accounts ob) : q.Accounts ob := by
  cases move with
  | drop held =>
    rcases counted with counted | counted
    · exact Or.inl counted
    · rcases List.mem_cons.mp counted with rfl | later
      · exact Or.inl held
      · exact Or.inr later
  | assign free offered =>
    rcases counted with counted | counted
    · exact Or.inl (held?_insert_of_held free counted)
    · rcases List.mem_cons.mp counted with rfl | later
      · exact Or.inl (by rw [held?_insert, if_pos rfl])
      · exact Or.inr (List.mem_append_left _ later)

theorem Move.justified (move : Move p q) (justified : p.Justified) : q.Justified := by
  have accounts : ∀ {o}, p.Accounts o → q.Accounts o := fun counted => move.accounts counted
  cases move with
  | drop held =>
    refine ⟨justified.const_free, fun f x assigned => ?_⟩
    obtain ⟨o, shape, value, new, offered, counted⟩ := justified.choice f x assigned
    exact ⟨o, shape, value, new, offered, fun o' mem => accounts (counted o' mem)⟩
  | @assign values ob rest new free offered =>
    refine ⟨fun x => ?_, fun f x assigned => ?_⟩
    -- A constant always holds its own value, so it is dropped or closes the leaf.
    · have distinct : ob.expr.shape ≠ .const x := by
        intro same
        have held := held?_eq_some_iff.mpr (Or.inr ⟨justified.const_free x, rfl⟩)
        rw [same, held] at free
        contradiction
      rw [OrderedMap.get?_insert_of_ne _ _ distinct]
      exact justified.const_free x
    · rw [OrderedMap.get?_insert] at assigned
      split at assigned
      · rename_i same
        refine ⟨ob, same, Option.some.inj assigned, new, offered, fun o mem => ?_⟩
        exact Or.inr (List.mem_append_right _ mem)
      · obtain ⟨o, shape, value, chosen, offered, counted⟩ := justified.choice f x assigned
        exact ⟨o, shape, value, chosen, offered, fun o' mem => accounts (counted o' mem)⟩

theorem Move.mentionsOnly {names : String → Prop} (move : Move p q)
    (only : p.MentionsOnly names) : q.MentionsOnly names := by
  cases move with
  | drop held => exact ⟨only.assigned, fun o mem => only.pending o (List.mem_cons_of_mem _ mem)⟩
  | @assign values ob rest new free offered =>
    have here := only.pending ob List.mem_cons_self
    refine ⟨fun f x assigned => ?_, fun o mem => ?_⟩
    · rw [OrderedMap.get?_insert] at assigned
      split at assigned
      · rename_i same
        exact same ▸ here
      · exact only.assigned f x assigned
    · rcases List.mem_append.mp mem with later | added
      · exact only.pending o (List.mem_cons_of_mem _ later)
      · intro name occurs
        exact here name (Formula.vars_subset_of_mem_operands
          (Obligation.shape_mem_operands_of_choice offered added) occurs)

/-! ### What a chain of moves keeps -/

theorem accounts_of_moves (moves : ReflTransGen Move p q) (counted : p.Accounts ob) :
    q.Accounts ob := by
  induction moves with
  | refl => exact counted
  | tail _ move ih => exact move.accounts ih

theorem justified_of_moves (moves : ReflTransGen Move p q) (justified : p.Justified) :
    q.Justified := by
  induction moves with
  | refl => exact justified
  | tail _ move ih => exact move.justified ih

theorem mentionsOnly_of_moves {names : String → Prop} (moves : ReflTransGen Move p q)
    (only : p.MentionsOnly names) : q.MentionsOnly names := by
  induction moves with
  | refl => exact only
  | tail _ move ih => exact move.mentionsOnly ih

/-! ### Saturated leaves -/

/-- Where nothing is pending, a valuation that agrees on the variables meets whatever is held. -/
theorem Point.Justified.metBy (justified : p.Justified) (done : p.pending = [])
    (agrees : ∀ name x, p.values.get? (.var name) = some x → v name = x)
    (held : held? p.values ob.expr.shape = some ob.value) : ob.MetBy v := by
  -- On the size of the formula: what justifies a value speaks of operands.
  induction size : ob.expr.shape.size using Nat.strongRecOn generalizing ob with
  | ind n ih =>
    subst size
    rcases held?_eq_some_iff.mp held with assigned | ⟨-, isConst⟩
    · -- Another obligation may have assigned the value, on an equal formula with other marks.
      obtain ⟨o, shape, value, new, offered, counted⟩ := justified.choice _ _ assigned
      rw [Obligation.metBy_iff, ← shape, ← value, ← Obligation.metBy_iff]
      by_cases compound : o.expr.shape.operands = []
      · rw [Obligation.metBy_iff, shape, value]
        rw [shape] at compound
        cases leaf : ob.expr.shape with
        | var name => exact agrees name ob.value (leaf ▸ assigned)
        | const x =>
          rw [leaf, justified.const_free] at assigned
          contradiction
        | not | binary => simp [leaf, Formula.operands] at compound
      · rw [Obligation.metBy_iff_exists_choice compound]
        refine ⟨new, offered, fun o' mem => ?_⟩
        have operand := Obligation.shape_mem_operands_of_choice offered mem
        rw [shape] at operand
        rcases counted o' mem with held | pending
        · exact ih _ (Formula.size_lt_of_mem_operands operand) held rfl
        · simp [done] at pending
    · rw [Obligation.metBy_iff, isConst, Formula.eval]

/-- Before anything is assigned, nothing needs a justification. -/
theorem justified_empty (pending : List Obligation) : Point.Justified ⟨.empty, pending⟩ :=
  ⟨fun _ => rfl, fun _ _ assigned => by simp at assigned⟩

end Tableau

namespace Branch

open Tableau

variable {b leaf : Branch} {pending : List Obligation} {v : String → Bool}

theorem mem_variableValues_iff (b : Branch) (name : String) (x : Bool) :
    (name, x) ∈ b.variableValues ↔ b.assignments.get? (.var name) = some x := by
  rw [OrderedMap.get?_eq_some_iff, variableValues, List.mem_filterMap]
  constructor
  · rintro ⟨⟨f, y⟩, mem, found⟩
    cases f with
    | var name' =>
      cases found
      exact mem
    | const | not | binary => contradiction
  · exact fun mem => ⟨(.var name, x), mem, rfl⟩

/-- A valuation that agrees with the open leaf on the variables meets all obligations that the tree
was solved for. -/
theorem metBy_of_openLeaf?_solve (childless : b.children = []) (start : b.assignments = .empty)
    (found : (b.solve pending).openLeaf? = some leaf)
    (agrees : ∀ name x, (name, x) ∈ leaf.variableValues → v name = x) :
    ∀ ob ∈ pending, ob.MetBy v := by
  intro ob mem
  have moves := moves_of_openLeaf?_solve childless found
  rw [start] at moves
  have counted : Point.Accounts ⟨leaf.assignments, []⟩ ob := accounts_of_moves moves (Or.inr mem)
  have held := counted.resolve_right (by simp)
  exact (justified_of_moves moves (justified_empty pending)).metBy rfl
    (fun name x assigned => agrees name x ((leaf.mem_variableValues_iff name x).mpr assigned)) held

end Branch

end Sentential
