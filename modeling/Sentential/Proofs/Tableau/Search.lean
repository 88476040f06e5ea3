import Mathlib.Logic.Basic
import Mathlib.Logic.Relation
import Sentential.Formula.Evaluation
import Sentential.Tableau.Basic

/-!
# The search of a tableau

A valuation meets an obligation when the expression evaluates to the required value. The
consequences of an obligation offer one or two choices of further obligations; a valuation that
meets the obligation meets one of the choices in full, and for a compound expression the converse
holds too.

What leads to one leaf of a proof tree is a chain of moves on the assignments and the pending
obligations. Each move either drops an obligation whose formula holds the required value already, or
assigns the value and takes over one of the choices. The rest of the tree does not matter for that
leaf, so an invariant of the leaf needs to be checked for one move only.

## Main definitions

* `Obligation.MetBy` — a valuation gives an expression the required value
* `Consequences.choices` — the lists of obligations between which a branch may choose
* `Tableau.Point`, `Tableau.Move` — where the search stands on the way to a leaf, and one step

## Main results

* `metBy_of_choice`, `MetBy.exists_choice` — what the choices mean
* `moves_of_openLeaf?_solve` — a chain of moves leads to the open leaf
* `isClosed_solve`, `openLeaf?_solve_isSome_iff` — the readings of a proof tree agree with its mark
* `solveWithin_eq_solve`, `solveWithin_eq_some_of_totalSize_le` — the bounded search, when it ends
-/

namespace Sentential

/-- The lists of obligations between which a branch may choose. -/
def Consequences.choices : Consequences → List (List Obligation)
  | .all obs => [obs]
  | .either first second => [first, second]

namespace Obligation

variable {v : String → Bool} {ob : Obligation}

/-- A valuation meets an obligation if the expression evaluates to the value. -/
def MetBy (v : String → Bool) (ob : Obligation) : Prop := ob.expr.shape.HasValue v ob.value

theorem metBy_iff : ob.MetBy v ↔ ob.expr.shape.eval v = ob.value := Formula.hasValue_iff

/-- An obligation on a compound expression is met exactly when one of its choices is met in full. -/
theorem metBy_iff_exists_choice (compound : ob.expr.shape.operands ≠ []) :
    ob.MetBy v ↔ ∃ new ∈ ob.consequences.choices, ∀ o ∈ new, o.MetBy v := by
  obtain ⟨e, b⟩ := ob
  simp only [metBy_iff]
  cases e with
  | var | const => exact absurd rfl compound
  | not m e =>
    simp only [consequences, Consequences.choices, List.mem_singleton, exists_eq_left, forall_eq,
      Expr.shape, Formula.eval]
    exact Bool.not_eq_eq_eq_not
  | binary m op l r =>
    simp only [Expr.shape, Formula.eval]
    cases op <;> cases b <;>
      simp only [consequences, Consequences.choices, both, Connective.apply, List.mem_cons,
        List.not_mem_nil, or_false, exists_eq_or_imp, exists_eq_left, forall_eq_or_imp,
        forall_eq] <;>
      cases l.shape.eval v <;> cases r.shape.eval v <;> decide

/-- A valuation that meets an obligation meets one of its choices in full. -/
theorem MetBy.exists_choice (met : ob.MetBy v) :
    ∃ new ∈ ob.consequences.choices, ∀ o ∈ new, o.MetBy v := by
  by_cases compound : ob.expr.shape.operands = []
  · obtain ⟨e, b⟩ := ob
    cases e with
    | var | const => exact ⟨[], List.mem_singleton_self _, by simp⟩
    | not | binary => simp [Expr.shape, Formula.operands] at compound
  · exact (metBy_iff_exists_choice compound).mp met

/-- The obligations of a choice are about operands. -/
theorem shape_mem_operands_of_choice {new : List Obligation} {o : Obligation}
    (offered : new ∈ ob.consequences.choices) (mem : o ∈ new) :
    o.expr.shape ∈ ob.expr.shape.operands := by
  obtain ⟨e, b⟩ := ob
  cases e with
  | var | const =>
    simp only [consequences, Consequences.choices, List.mem_singleton] at offered
    simp [offered] at mem
  | not m e =>
    simp only [consequences, Consequences.choices, List.mem_singleton] at offered
    simp only [offered, List.mem_singleton] at mem
    simp [mem, Expr.shape, Formula.operands]
  | binary m op l r =>
    simp only [Expr.shape, Formula.operands, List.mem_cons, List.not_mem_nil, or_false]
    cases op <;> cases b <;>
      simp only [consequences, Consequences.choices, both, List.mem_cons, List.not_mem_nil,
        or_false] at offered <;>
      grind

end Obligation

namespace Tableau

/-- The value that a formula holds under some assignments, or as a constant. -/
def held? (values : OrderedMap Formula Bool) (f : Formula) : Option Bool :=
  ({ assignments := values } : Branch).held? f

variable {values : OrderedMap Formula Bool} {f g : Formula} {x y : Bool}

theorem held?_eq_some_iff :
    held? values f = some x ↔ values.get? f = some x ∨ values.get? f = none ∧ f = .const x := by
  unfold held? Branch.held?
  cases values.get? f with
  | some y => simp
  | none => cases f <;> simp

theorem held?_insert (values : OrderedMap Formula Bool) (f g : Formula) (x : Bool) :
    held? (values.insert f x) g = if f = g then some x else held? values g := by
  unfold held? Branch.held?
  simp only [OrderedMap.get?_insert]
  by_cases same : f = g <;> simp [same]

/-- What is held stays held when a formula without a value is assigned one. -/
theorem held?_insert_of_held (free : held? values f = none) (held : held? values g = some y) :
    held? (values.insert f x) g = some y := by
  have distinct : f ≠ g := by
    rintro rfl
    rw [free] at held
    contradiction
  rw [held?_insert, if_neg distinct, held]

/-- Where the search stands on the way to one leaf: what is assigned and what is pending. -/
structure Point where
  /-- The values of formulas. -/
  values : OrderedMap Formula Bool
  /-- The obligations that are not worked off yet. -/
  pending : List Obligation

/-- One step of the search towards one leaf that it does not close. -/
inductive Move : Point → Point → Prop
  | drop {values : OrderedMap Formula Bool} {ob : Obligation} {rest : List Obligation}
      (held : held? values ob.expr.shape = some ob.value) :
      Move ⟨values, ob :: rest⟩ ⟨values, rest⟩
  | assign {values : OrderedMap Formula Bool} {ob : Obligation} {rest new : List Obligation}
      (free : held? values ob.expr.shape = none) (offered : new ∈ ob.consequences.choices) :
      Move ⟨values, ob :: rest⟩ ⟨values.insert ob.expr.shape ob.value, rest ++ new⟩

end Tableau

namespace Branch

open Tableau Relation

variable {b leaf : Branch} {pending : List Obligation} {limit : Nat}

/-! ### Readings of a tree and of its children -/

theorem isClosed_of_children_eq_nil (childless : b.children = []) :
    b.isClosed = decide (b.status = .closed) := by
  obtain ⟨label, assignments, steps, status, contradiction, children⟩ := b
  cases childless
  cases status <;> rfl

theorem isClosed_join (b x y : Branch) :
    (b.join [x, y]).isClosed =
      (decide (x.status = .closed ∧ y.status = .closed) || (x.isClosed && y.isClosed)) := by
  cases hx : x.status <;> cases hy : y.status <;>
    simp [join, isClosed, allClosed, hx, hy]

theorem openLeaf?_of_children_eq_nil (childless : b.children = []) :
    b.openLeaf? = if b.status = .complete then some b else none := by
  obtain ⟨label, assignments, steps, status, contradiction, children⟩ := b
  cases childless
  rfl

theorem openLeaf?_join (b x y : Branch) :
    (b.join [x, y]).openLeaf? = x.openLeaf?.or y.openLeaf? := by
  simp only [join, openLeaf?, openLeafOf?]
  cases x.openLeaf? <;> cases y.openLeaf? <;> rfl

theorem status_join (b x y : Branch) :
    (b.join [x, y]).status = .closed ↔ x.status = .closed ∧ y.status = .closed := by
  simp only [join, List.all_cons, List.all_nil, Bool.and_true]
  split <;> simp_all

/-- A solved tree is closed exactly when it is marked so. -/
theorem isClosed_solve (b : Branch) (pending : List Obligation) (childless : b.children = []) :
    (b.solve pending).isClosed = decide ((b.solve pending).status = .closed) := by
  fun_induction solve b pending with
  | case1 b => exact isClosed_of_children_eq_nil childless
  | case2 b ob rest held ih => exact ih childless
  | case3 b ob rest previous held differ => exact isClosed_of_children_eq_nil childless
  | case4 b ob rest free obs all ih => exact ih childless
  | case5 b ob rest free first second either parent ihFirst ihSecond =>
    rw [isClosed_join, ihFirst rfl, ihSecond rfl]
    simp [status_join]

/-- A solved tree has an open leaf exactly when it is not marked closed. -/
theorem openLeaf?_solve_isSome_iff (b : Branch) (pending : List Obligation)
    (childless : b.children = []) :
    (b.solve pending).openLeaf?.isSome ↔ (b.solve pending).status ≠ .closed := by
  fun_induction solve b pending with
  | case1 b => simp [openLeaf?_of_children_eq_nil, childless]
  | case2 b ob rest held ih => exact ih childless
  | case3 b ob rest previous held differ =>
    rw [openLeaf?_of_children_eq_nil (by exact childless)]
    simp [close]
  | case4 b ob rest free obs all ih => exact ih childless
  | case5 b ob rest free first second either parent ihFirst ihSecond =>
    rw [openLeaf?_join, Option.isSome_or, Bool.or_eq_true, ihFirst rfl, ihSecond rfl]
    simp only [ne_eq, status_join, not_and_or]

/-- A chain of moves leads from a branch to the open leaf of its tree. -/
theorem moves_of_openLeaf?_solve (childless : b.children = [])
    (found : (b.solve pending).openLeaf? = some leaf) :
    ReflTransGen Move ⟨b.assignments, pending⟩ ⟨leaf.assignments, []⟩ := by
  fun_induction solve b pending with
  | case1 b =>
    rw [openLeaf?_of_children_eq_nil (by exact childless), if_pos rfl] at found
    cases found
    exact .refl
  | case2 b ob rest held ih => exact .head (.drop held) (ih childless found)
  | case3 b ob rest previous held differ =>
    rw [openLeaf?_of_children_eq_nil (by exact childless)] at found
    simp [close] at found
  | case4 b ob rest free obs all ih =>
    have offered : obs ∈ ob.consequences.choices := by simp [all, Consequences.choices]
    exact .head (.assign free offered) (ih childless found)
  | case5 b ob rest free first second either parent ihFirst ihSecond =>
    have offersFirst : first ∈ ob.consequences.choices := by simp [either, Consequences.choices]
    have offersSecond : second ∈ ob.consequences.choices := by simp [either, Consequences.choices]
    -- The leaf lies under the first child, or under the second one if the first has none.
    rw [openLeaf?_join, Option.or_eq_some_iff] at found
    rcases found with found | ⟨-, found⟩
    · exact .head (.assign free offersFirst) (ihFirst rfl found)
    · exact .head (.assign free offersSecond) (ihSecond rfl found)

/-! ### One step of the search -/

theorem solve_nil (b : Branch) : b.solve [] = { b with status := .complete } := by rw [solve]

variable {ob : Obligation} {rest obs first second : List Obligation} {previous : Bool}

theorem solve_of_held (held : b.held? ob.expr.shape = some ob.value) :
    b.solve (ob :: rest) = b.solve rest := by
  rw [solve, held]
  exact if_pos rfl

theorem solve_of_conflict (held : b.held? ob.expr.shape = some previous)
    (differ : previous ≠ ob.value) : b.solve (ob :: rest) = b.close ob previous := by
  rw [solve, held]
  exact if_neg differ

theorem solve_of_all (free : b.held? ob.expr.shape = none) (all : ob.consequences = .all obs) :
    b.solve (ob :: rest) = (b.force ob).solve (rest ++ obs) := by
  rw [solve, free]
  dsimp only
  split
  · rename_i found
    cases all.symm.trans found
    rfl
  · rename_i found
    cases all.symm.trans found

theorem solve_of_either (free : b.held? ob.expr.shape = none)
    (either : ob.consequences = .either first second) :
    b.solve (ob :: rest) = ((b.force ob).markSplit ob).join
      [(((b.force ob).markSplit ob).child (caseLabel first)).solve (rest ++ first),
        (((b.force ob).markSplit ob).child (caseLabel second)).solve (rest ++ second)] := by
  rw [solve, free]
  dsimp only
  split
  · rename_i found
    cases either.symm.trans found
  · rename_i found
    cases either.symm.trans found
    rfl

/-! ### The bounded search -/

theorem solveWithin_nil (limit : Nat) (b : Branch) :
    b.solveWithin limit [] = some { b with status := .complete } := by rw [solveWithin]

theorem solveWithin_of_held (held : b.held? ob.expr.shape = some ob.value) :
    b.solveWithin limit (ob :: rest) = b.solveWithin limit rest := by
  rw [solveWithin, held]
  exact if_pos rfl

theorem solveWithin_of_conflict (held : b.held? ob.expr.shape = some previous)
    (differ : previous ≠ ob.value) :
    b.solveWithin limit (ob :: rest) = some (b.close ob previous) := by
  rw [solveWithin, held]
  exact if_neg differ

theorem solveWithin_of_all (free : b.held? ob.expr.shape = none)
    (all : ob.consequences = .all obs) :
    b.solveWithin limit (ob :: rest) = (b.force ob).solveWithin limit (rest ++ obs) := by
  rw [solveWithin, free]
  dsimp only
  split
  · rename_i found
    cases all.symm.trans found
    rfl
  · rename_i found
    cases all.symm.trans found

theorem solveWithin_zero_of_either (free : b.held? ob.expr.shape = none)
    (either : ob.consequences = .either first second) :
    b.solveWithin 0 (ob :: rest) = none := by
  rw [solveWithin, free]
  dsimp only
  split
  · rename_i found
    cases either.symm.trans found
  · rfl

theorem solveWithin_succ_of_either (free : b.held? ob.expr.shape = none)
    (either : ob.consequences = .either first second) :
    b.solveWithin (limit + 1) (ob :: rest) =
      ((((b.force ob).markSplit ob).child (caseLabel first)).solveWithin limit
        (rest ++ first)).bind fun x =>
      ((((b.force ob).markSplit ob).child (caseLabel second)).solveWithin limit
        (rest ++ second)).map fun y => ((b.force ob).markSplit ob).join [x, y] := by
  rw [solveWithin, free]
  dsimp only
  split
  · rename_i found
    cases either.symm.trans found
  · rename_i found
    cases either.symm.trans found
    cases (((b.force ob).markSplit ob).child (caseLabel first)).solveWithin limit
      (rest ++ first) with
    | none => rfl
    | some x =>
      cases (((b.force ob).markSplit ob).child (caseLabel second)).solveWithin limit
        (rest ++ second) <;> rfl

/-- The bounded search finds the same tree, if it ends. -/
theorem solveWithin_eq_solve {t : Branch} (ended : b.solveWithin limit pending = some t) :
    t = b.solve pending := by
  revert t
  fun_induction solveWithin limit b pending with
  | case1 limit b =>
    rintro t ⟨⟩
    rw [solve_nil]
  | case2 limit b ob rest held ih =>
    rw [solve_of_held held]
    exact ih
  | case3 limit b ob rest previous held differ =>
    rintro t ⟨⟩
    rw [solve_of_conflict held differ]
  | case4 limit b ob rest free obs all ih =>
    rw [solve_of_all free all]
    exact ih
  | case5 | case6 | case7 =>
    intro t ended
    contradiction
  | case8 b ob rest free first second either limit parent x ranFirst y ranSecond ihFirst =>
    rename_i ihSecond
    rintro t ⟨⟩
    rw [solve_of_either free either, ← ihFirst ranFirst, ← ihSecond ranSecond]

/-- A search bounded by the number of nodes always ends. -/
theorem solveWithin_eq_some_of_totalSize_le (within : Obligation.totalSize pending ≤ limit) :
    b.solveWithin limit pending = some (b.solve pending) := by
  fun_induction solveWithin limit b pending with
  | case1 limit b => rw [solve_nil]
  | case2 limit b ob rest held ih =>
    rw [solve_of_held held]
    rw [Obligation.totalSize_cons] at within
    exact ih (by omega)
  | case3 limit b ob rest previous held differ => rw [solve_of_conflict held differ]
  | case4 limit b ob rest free obs all ih =>
    have smaller := Obligation.totalSize_lt_of_all all
    rw [solve_of_all free all]
    rw [Obligation.totalSize_cons] at within
    exact ih (by rw [Obligation.totalSize_append]; omega)
  | case5 b ob rest free first second either =>
    -- The limit is used up at a split, but the queue still has a node.
    have nonempty := ob.size_pos
    rw [Obligation.totalSize_cons] at within
    omega
  | case6 b ob rest free first second either limit parent stopped ih =>
    have smaller := (Obligation.totalSize_lt_of_either either).1
    rw [Obligation.totalSize_cons] at within
    rw [ih (by rw [Obligation.totalSize_append]; omega)] at stopped
    contradiction
  | case7 b ob rest free first second either limit parent x ranFirst stopped ihFirst =>
    rename_i ihSecond
    have smaller := (Obligation.totalSize_lt_of_either either).2
    rw [Obligation.totalSize_cons] at within
    rw [ihSecond (by rw [Obligation.totalSize_append]; omega)] at stopped
    contradiction
  | case8 b ob rest free first second either limit parent x ranFirst y ranSecond =>
    rw [solve_of_either free either, ← solveWithin_eq_solve ranFirst,
      ← solveWithin_eq_solve ranSecond]

end Branch

end Sentential
