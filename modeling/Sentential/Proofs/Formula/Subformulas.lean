import Mathlib.Data.List.Basic
import Sentential.Formula.Basic

/-!
# The order of subformulas

The occurrences of subformulas are listed with operands before what they belong to. The list of the
distinct ones keeps that order if each is put where it first stands: the first occurrence of a
formula comes with its operands, which may have stood even earlier.

## Main definitions

* `Formula.OperandsFirst` — a list in which operands come before the formulas that they belong to

## Main results

* `subformulas_eq` — the subformulas are those of the operands, and then the whole
* `operandsFirst_subformulas` — the list of the subformulas is in that order
-/

namespace Sentential.Formula

variable {f g h : Formula} {l r : List Formula}

/-- The subformulas are those of the operands and then the whole. -/
theorem subformulas_eq (f : Formula) : f.subformulas = f.operands.flatMap subformulas ++ [f] := by
  cases f <;> simp [subformulas, operands]

theorem self_or_operand_of_mem_subformulas (mem : h ∈ f.subformulas) :
    h = f ∨ ∃ g ∈ f.operands, h ∈ g.subformulas := by
  cases f with
  | var | const => simpa [subformulas, operands] using mem
  | not f => simpa [subformulas, operands, or_comm] using mem
  | binary op l r =>
    simp only [subformulas, List.mem_append, List.mem_singleton] at mem
    simp only [operands, List.mem_cons, List.not_mem_nil, or_false]
    rcases mem with (left | right) | rfl
    · exact Or.inr ⟨l, Or.inl rfl, left⟩
    · exact Or.inr ⟨r, Or.inr rfl, right⟩
    · exact Or.inl rfl

theorem size_le_of_mem_subformulas (mem : g ∈ f.subformulas) : g.size ≤ f.size := by
  induction size : f.size using Nat.strongRecOn generalizing f with
  | ind n ih =>
    subst size
    rcases self_or_operand_of_mem_subformulas mem with rfl | ⟨operand, below, mem⟩
    · exact Nat.le_refl _
    · have less := size_lt_of_mem_operands below
      exact Nat.le_of_lt (Nat.lt_of_le_of_lt (ih _ less mem rfl) less)

theorem subformulas_subset_of_mem (mem : g ∈ f.subformulas) : g.subformulas ⊆ f.subformulas := by
  induction size : f.size using Nat.strongRecOn generalizing f with
  | ind n ih =>
    subst size
    rcases self_or_operand_of_mem_subformulas mem with rfl | ⟨operand, below, mem⟩
    · exact List.Subset.refl _
    · have within := ih _ (size_lt_of_mem_operands below) mem rfl
      rw [subformulas_eq f]
      exact fun k occurs => List.mem_append_left _
        (List.mem_flatMap.mpr ⟨operand, below, within occurs⟩)

theorem vars_subset_of_mem_subformulas (mem : g ∈ f.subformulas) : g.vars ⊆ f.vars := by
  induction size : f.size using Nat.strongRecOn generalizing f with
  | ind n ih =>
    subst size
    rcases self_or_operand_of_mem_subformulas mem with rfl | ⟨operand, below, mem⟩
    · exact List.Subset.refl _
    · exact List.Subset.trans (ih _ (size_lt_of_mem_operands below) mem rfl)
        (vars_subset_of_mem_operands below)

/-- Names that cover the variables of a formula cover those of its subformulas. -/
theorem covered_of_mem_subformulas {names : List String} (covered : ∀ x ∈ f.vars, x ∈ names)
    (mem : g ∈ f.subformulas) : ∀ x ∈ g.vars, x ∈ names :=
  fun _ occurs => covered _ (vars_subset_of_mem_subformulas mem occurs)

/-- Valuations that agree on these names give every subformula the same value. -/
theorem eval_congr_of_covered {names : List String} {v w : String → Bool}
    (covered : ∀ x ∈ f.vars, x ∈ names) (mem : g ∈ f.subformulas)
    (same : ∀ x ∈ names, v x = w x) : g.eval v = g.eval w :=
  g.eval_congr fun x occurs => same x (covered_of_mem_subformulas covered mem x occurs)

/-- A formula is not among the subformulas of its operands. -/
theorem notMem_subformulas_of_operands (f : Formula) : f ∉ f.operands.flatMap subformulas := by
  intro mem
  obtain ⟨operand, below, mem⟩ := List.mem_flatMap.mp mem
  have less := size_lt_of_mem_operands below
  have atMost := size_le_of_mem_subformulas mem
  omega

/-- Every formula of the list first stands behind the first places of its operands. -/
def OperandsFirst (l : List Formula) : Prop :=
  ∀ g ∈ l, ∀ h ∈ g.operands, l.idxOf h < l.idxOf g

theorem OperandsFirst.mem (first : OperandsFirst l) (mem : g ∈ l) (operand : h ∈ g.operands) :
    h ∈ l :=
  List.idxOf_lt_length_iff.mp
    (Nat.lt_trans (first g mem h operand) (List.idxOf_lt_length_iff.mpr mem))

theorem OperandsFirst.append (left : OperandsFirst l) (right : OperandsFirst r) :
    OperandsFirst (l ++ r) := by
  intro g mem h operand
  by_cases inLeft : g ∈ l
  · rw [List.idxOf_append_of_mem inLeft, List.idxOf_append_of_mem (left.mem inLeft operand)]
    exact left g inLeft h operand
  · have inRight := (List.mem_append.mp mem).resolve_left inLeft
    have less := right g inRight h operand
    rw [List.idxOf_append_of_notMem inLeft]
    by_cases early : h ∈ l
    · have within := List.idxOf_lt_length_iff.mpr early
      rw [List.idxOf_append_of_mem early]
      omega
    · rw [List.idxOf_append_of_notMem early]
      omega

theorem OperandsFirst.concat (first : OperandsFirst l) (new : f ∉ l)
    (operands : ∀ h ∈ f.operands, h ∈ l) : OperandsFirst (l ++ [f]) := by
  intro g mem h operand
  by_cases old : g ∈ l
  · rw [List.idxOf_append_of_mem old, List.idxOf_append_of_mem (first.mem old operand)]
    exact first g old h operand
  · obtain rfl : g = f := by simpa [old] using mem
    have early := operands h operand
    have within := List.idxOf_lt_length_iff.mpr early
    rw [List.idxOf_append_of_notMem old, List.idxOf_append_of_mem early]
    omega

/-- Dropping repetitions keeps operands in front. -/
theorem OperandsFirst.distinct (first : OperandsFirst l) : OperandsFirst (distinct l) := by
  intro g mem h operand
  rw [mem_distinct] at mem
  have less := first g mem h operand
  have inG := List.idxOf_lt_length_iff.mpr ((mem_distinct l g).mpr mem)
  have inH := List.idxOf_lt_length_iff.mpr ((mem_distinct l h).mpr (first.mem mem operand))
  -- Otherwise the two would stand in the other order in the list itself.
  by_contra late
  rcases Nat.lt_or_eq_of_le (Nat.not_lt.mp late) with before | same
  · have order := List.pairwise_iff_getElem.mp (pairwise_idxOf_distinct l) _ _ inG inH before
    rw [List.getElem_idxOf, List.getElem_idxOf] at order
    omega
  · have equal := List.getElem_idxOf inG
    simp only [same, List.getElem_idxOf] at equal
    rw [equal] at less
    exact Nat.lt_irrefl _ less

theorem operandsFirst_of_operands (below : OperandsFirst (f.operands.flatMap subformulas)) :
    OperandsFirst f.subformulas := by
  rw [subformulas_eq]
  exact below.concat (notMem_subformulas_of_operands f) fun h operand =>
    List.mem_flatMap.mpr ⟨h, operand, h.mem_subformulas_self⟩

theorem operandsFirst_subformulas (f : Formula) : OperandsFirst f.subformulas := by
  induction f with
  | var | const => exact operandsFirst_of_operands fun g mem => by cases mem
  | not f ih => exact operandsFirst_of_operands (by simpa [operands] using ih)
  | binary op l r ihl ihr =>
    exact operandsFirst_of_operands (by simpa [operands] using ihl.append ihr)

end Sentential.Formula
