import Mathlib.Data.Nat.Bitwise
import Sentential.TruthTable.Basic

/-!
# Row numbers and assignments

The number of a row is read as binary digits, the first declared name taking the most significant
one. Conversely the values of the declared names are the digits of a number below the number of
rows, and for distinct names of one number only. A name that is declared twice has two digits; the
last one counts, so a valuation still has a number, which gives both digits the same value.

## Main definitions

* `TruthTable.valuation` — the valuation that a row number means
* `TruthTable.numberOf` — a row number that means a valuation
* `TruthTable.placed` — the names with the places of their digits

## Main results

* `TruthTable.bindings_numberOf` — the number of a valuation means that valuation
* `TruthTable.index_unique` — distinct names leave no other number
-/

namespace Sentential

/-- The digits of a number are its bits. -/
theorem Row.bit_natCast (n place : Nat) : Row.bit n place = n.testBit place := by
  have shifted : (n : Int) >>> place % 2 = ((n / 2 ^ place % 2 : Nat) : Int) := by
    rw [Int.shiftRight_eq_div_pow]
    norm_cast
  rw [Row.bit, shifted, Nat.testBit_eq_decide_div_mod_eq]
  have digit := Nat.mod_two_eq_zero_or_one (n / 2 ^ place)
  rcases digit with zero | one
  · rw [zero]; rfl
  · rw [one]; rfl

namespace TruthTable

variable {vars : List String} {x : String} {v : String → Bool} {m n : Nat} {index : Int}

theorem map_fst_bindings (index : Int) (vars : List String) :
    (bindings index vars).map Prod.fst = vars := by
  induction vars with
  | nil => rfl
  | cons x rest ih => rw [bindings, List.map_cons, ih]

/-- Only the digits at the places of the names count. -/
theorem bindings_congr (same : ∀ place < vars.length, Row.bit m place = Row.bit n place) :
    bindings m vars = bindings n vars := by
  induction vars with
  | nil => rfl
  | cons x rest ih =>
    have here := same rest.length (Nat.lt_succ_self _)
    have below := ih fun place less => same place (Nat.lt_succ_of_lt less)
    rw [bindings, bindings, here, below]

theorem mem_keys_assignment : x ∈ (assignment index vars).keys ↔ x ∈ vars := by
  rw [assignment, OrderedMap.mem_keys_ofList, map_fst_bindings]

/-- Distinct names keep their order. -/
theorem keys_assignment (nodup : vars.Nodup) : (assignment index vars).keys = vars := by
  have listed := map_fst_bindings index vars
  rw [assignment, OrderedMap.ofList, OrderedMap.keys_insertMany_of_notMem, listed]
  · rfl
  · rwa [listed]
  · exact fun _ _ mem => by cases mem

/-- The valuation that a row number means; names that are not declared are false. -/
def valuation (index : Int) (vars : List String) (x : String) : Bool :=
  ((assignment index vars).get? x).getD false

theorem get?_assignment (declared : x ∈ vars) :
    (assignment index vars).get? x = some (valuation index vars x) := by
  have present : x ∈ (assignment index vars).keys := mem_keys_assignment.mpr declared
  rw [OrderedMap.mem_keys_iff] at present
  obtain ⟨b, found⟩ := Option.isSome_iff_exists.mp present
  rw [valuation, found, Option.getD_some]

/-- A formula over the names has the value under the assignment that it has under the valuation. -/
theorem eval?_assignment {f : Formula} (covered : ∀ x ∈ f.vars, x ∈ vars) (index : Int) :
    f.eval? (assignment index vars).get? = .ok (f.eval (valuation index vars)) :=
  f.eval?_eq_ok fun x occurs => get?_assignment (covered x occurs)

/-- A number that means the valuation. -/
def numberOf (v : String → Bool) : List String → Nat
  | [] => 0
  | x :: rest => 2 ^ rest.length * (v x).toNat + numberOf v rest

theorem numberOf_lt (v : String → Bool) (vars : List String) :
    numberOf v vars < 2 ^ vars.length := by
  induction vars with
  | nil => exact Nat.one_pos
  | cons x rest ih =>
    rw [numberOf, List.length_cons, Nat.pow_succ]
    cases v x <;> simp only [Bool.toNat_false, Bool.toNat_true] <;> omega

theorem bindings_numberOf (v : String → Bool) (vars : List String) :
    bindings (numberOf v vars) vars = vars.map fun x => (x, v x) := by
  induction vars with
  | nil => rfl
  | cons x rest ih =>
    -- The value of the first name is the most significant digit; the others do not see it.
    have bits : ∀ place, Row.bit (numberOf v (x :: rest)) place =
        if place < rest.length then (numberOf v rest).testBit place
        else ((v x).toNat).testBit (place - rest.length) := by
      intro place
      rw [Row.bit_natCast, numberOf, Nat.testBit_two_pow_mul_add _ (numberOf_lt v rest)]
    have first : Row.bit (numberOf v (x :: rest)) rest.length = v x := by
      rw [bits, if_neg (Nat.lt_irrefl _), Nat.sub_self]
      cases v x <;> rfl
    have others : bindings (numberOf v (x :: rest)) rest = bindings (numberOf v rest) rest := by
      refine bindings_congr fun place less => ?_
      rw [bits, if_pos less, Row.bit_natCast]
    rw [bindings, first, others, ih, List.map_cons]

/-- Every valuation of the names is meant by some number, also if names are repeated. -/
theorem get?_assignment_numberOf (v : String → Bool) (declared : x ∈ vars) :
    (assignment (numberOf v vars) vars).get? x = some (v x) := by
  rw [assignment, bindings_numberOf]
  refine OrderedMap.get?_insertMany_of_unique _ _ (fun y other => ?_) (Or.inl ?_)
  · obtain ⟨x', -, same⟩ := List.mem_map.mp other
    cases same
    rfl
  · exact List.mem_map.mpr ⟨x, declared, rfl⟩

theorem valuation_numberOf (v : String → Bool) (declared : x ∈ vars) :
    valuation (numberOf v vars) vars x = v x := by
  rw [valuation, get?_assignment_numberOf v declared, Option.getD_some]

/-- The names with their places, which are counted from the end. -/
def placed : List String → List (String × Nat)
  | [] => []
  | x :: rest => (x, rest.length) :: placed rest

theorem mem_placed_iff {place : Nat} :
    (x, place) ∈ placed vars ↔ vars.reverse[place]? = some x := by
  induction vars with
  | nil => simp [placed]
  | cons y rest ih =>
    rw [placed, List.mem_cons, ih, List.reverse_cons, Prod.mk.injEq]
    constructor
    · rintro (⟨rfl, rfl⟩ | named)
      · simp
      · have less := (List.getElem?_eq_some_iff.mp named).1
        rwa [List.getElem?_append_left less]
    · intro named
      by_cases less : place < rest.reverse.length
      · rw [List.getElem?_append_left less] at named
        exact Or.inr named
      · have last := (List.getElem?_eq_some_iff.mp named).1
        obtain rfl : place = rest.length := by
          simp only [List.length_append, List.length_reverse, List.length_singleton] at less last
          omega
        exact Or.inl ⟨by simpa using named.symm, rfl⟩

theorem lt_of_mem_placed {place : Nat} (named : (x, place) ∈ placed vars) :
    place < vars.length := by
  have less := (List.getElem?_eq_some_iff.mp (mem_placed_iff.mp named)).1
  rwa [List.length_reverse] at less

theorem mem_of_mem_placed {place : Nat} (named : (x, place) ∈ placed vars) : x ∈ vars :=
  List.mem_reverse.mp (List.mem_of_getElem? (mem_placed_iff.mp named))

/-- Every place has a name. -/
theorem exists_mem_placed {place : Nat} (less : place < vars.length) :
    ∃ x, (x, place) ∈ placed vars :=
  ⟨_, mem_placed_iff.mpr (List.getElem?_eq_getElem (by rwa [List.length_reverse]))⟩

theorem bindings_eq (index : Int) (vars : List String) :
    bindings index vars = (placed vars).map fun p => (p.1, Row.bit index p.2) := by
  induction vars with
  | nil => rfl
  | cons x rest ih => rw [bindings, ih, placed, List.map_cons]

theorem map_fst_placed (vars : List String) : (placed vars).map Prod.fst = vars := by
  induction vars with
  | nil => rfl
  | cons x rest ih => rw [placed, List.map_cons, ih]

/-- Every name has a place. -/
theorem exists_placed_of_mem (declared : x ∈ vars) : ∃ place, (x, place) ∈ placed vars := by
  rw [← map_fst_placed vars, List.mem_map] at declared
  obtain ⟨⟨_, place⟩, named, rfl⟩ := declared
  exact ⟨place, named⟩

theorem map_snd_placed (vars : List String) :
    (placed vars).map Prod.snd = (List.range vars.length).reverse := by
  induction vars with
  | nil => rfl
  | cons x rest ih =>
    rw [placed, List.map_cons, ih, List.length_cons, List.range_succ, List.reverse_concat]

/-- Distinct names keep their own digits. -/
theorem get?_assignment_of_placed (nodup : vars.Nodup) {place : Nat}
    (named : (x, place) ∈ placed vars) :
    (assignment index vars).get? x = some (Row.bit index place) := by
  have bound : (x, Row.bit index place) ∈ bindings index vars := by
    rw [bindings_eq]
    exact List.mem_map_of_mem named
  refine OrderedMap.get?_ofList_of_mem ?_ bound
  rwa [map_fst_bindings]

/-- Over distinct names two numbers of rows that mean the same assignment are equal. -/
theorem index_unique (nodup : vars.Nodup) (hm : m < 2 ^ vars.length) (hn : n < 2 ^ vars.length)
    (same : ∀ x ∈ vars, (assignment m vars).get? x = (assignment n vars).get? x) : m = n := by
  refine Nat.eq_of_testBit_eq fun place => ?_
  by_cases less : place < vars.length
  · obtain ⟨x, named⟩ := exists_mem_placed less
    have agree := same x (mem_of_mem_placed named)
    rw [get?_assignment_of_placed nodup named, get?_assignment_of_placed nodup named,
      Row.bit_natCast, Row.bit_natCast] at agree
    exact Option.some.inj agree
  · -- Beyond the places of the names neither number has digits.
    have wide : 2 ^ vars.length ≤ 2 ^ place := Nat.pow_le_pow_right (by decide) (by omega)
    rw [Nat.testBit_lt_two_pow (by omega), Nat.testBit_lt_two_pow (by omega)]

end TruthTable

end Sentential
