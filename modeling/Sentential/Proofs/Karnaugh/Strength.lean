import Mathlib.Algebra.Ring.CharZero
import Mathlib.Algebra.Ring.Int.Defs
import Mathlib.Data.Finset.Card
import Mathlib.Data.Nat.Count
import Mathlib.Data.Set.List
import Sentential.Proofs.Karnaugh.Minimization

/-!
# Terms are strongest conjunctions

A term can be made for any minterms, also for those of no rectangle, and over any number of
variables. It keeps the literals that are true at all the minterms. So it is true there itself, and
it implies every other conjunction of literals that is. It may be true at further row numbers: in
all it is true at as many as there are values for the variables on which the minterms differ. Only
if the minterms are that many, it is true nowhere else.

## Main definitions

* `Formula.IsConjunction` — a conjunction of literals, grouped in any way
* `Formula.IsStrongest` — the strongest conjunction of literals that is true at some row numbers
* `Karnaugh.IsConstantOn` — a variable has one value at all of some row numbers
* `Karnaugh.trueRows` — the row numbers at which some literals are true

## Main results

* `Karnaugh.mem_literals_iff_forall` — the literals of a term
* `Karnaugh.card_trueRows` — the number of rows at which a term is true
* `Karnaugh.term_isStrongest` — the term of any minterms over any variables
-/

namespace Sentential

open TruthTable (assignment valuation)

variable {σ : String → Option Bool} {vars : List String} {ms : List Int} {x : String} {b : Bool}
variable {place m n : Nat}

/-! ### Conjunctions of literals -/

namespace Formula

/-- A conjunction of literals over some variables, grouped in any way. The empty one is `1`. -/
inductive IsConjunction (vars : List String) : Formula → Prop
  | empty : IsConjunction vars (.const true)
  | positive {x : String} (listed : x ∈ vars) : IsConjunction vars (.var x)
  | negative {x : String} (listed : x ∈ vars) : IsConjunction vars (.not (.var x))
  | and {f g : Formula} (left : IsConjunction vars f) (right : IsConjunction vars g) :
      IsConjunction vars (.binary .and f g)

/-- The formula is true under the assignments of all of some row numbers. -/
def TrueAt (f : Formula) (vars : List String) (ms : List Int) : Prop :=
  ∀ m ∈ ms, f.eval? (assignment m vars).get? = .ok true

/-- The formula is the strongest conjunction of literals that is true at some row numbers. -/
structure IsStrongest (f : Formula) (vars : List String) (ms : List Int) : Prop where
  /-- It is such a conjunction itself. -/
  isConjunction : f.IsConjunction vars
  /-- It is true at the row numbers. -/
  trueAt : f.TrueAt vars ms
  /-- It implies every other one, also under assignments that leave some names unbound. -/
  implies : ∀ g : Formula, g.IsConjunction vars → g.TrueAt vars ms →
    ∀ σ : String → Option Bool, f.eval? σ = .ok true → g.eval? σ = .ok true

end Formula

namespace Expr

variable {e : Expr} {es : List Expr}

theorem eval?_foldl_and_iff :
    (es.foldl (.binary {} .and) e).shape.eval? σ = .ok true ↔
      ∀ r ∈ e :: es, r.shape.eval? σ = .ok true := by
  induction es generalizing e with
  | nil => simp
  | cons r es ih =>
    rw [List.foldl_cons, ih]
    simp only [List.forall_mem_cons, shape, Formula.eval?_and_iff, and_assoc]

theorem isConjunction_foldl (each : ∀ r ∈ e :: es, r.shape.IsConjunction vars) :
    (es.foldl (.binary {} .and) e).shape.IsConjunction vars := by
  induction es generalizing e with
  | nil => exact each e List.mem_cons_self
  | cons r es ih =>
    simp only [List.forall_mem_cons] at each ih
    exact ih ⟨each.1.and each.2.1, each.2.2⟩

end Expr

namespace Karnaugh

variable {ls : List (String × Bool)} {l : String × Bool}

theorem eval?_literalExpr_iff : (literalExpr l).shape.eval? σ = .ok true ↔ σ l.1 = some l.2 := by
  obtain ⟨x, b⟩ := l
  cases b
  · exact Formula.eval?_not_iff.trans Formula.eval?_var_iff
  · exact Formula.eval?_var_iff

/-- A product of literals is true where all its variables have the values of the literals. -/
theorem eval?_productExpr_iff :
    (productExpr ls).shape.eval? σ = .ok true ↔ ∀ l ∈ ls, σ l.1 = some l.2 := by
  cases ls with
  | nil => simp [productExpr, Expr.chain, Expr.shape, Formula.eval?]
  | cons l ls =>
    rw [productExpr, List.map_cons, Expr.chain, Expr.eval?_foldl_and_iff, ← List.map_cons,
      List.forall_mem_map]
    simp only [eval?_literalExpr_iff]

theorem isConjunction_literalExpr (listed : l.1 ∈ vars) :
    (literalExpr l).shape.IsConjunction vars := by
  obtain ⟨x, b⟩ := l
  cases b
  · exact .negative listed
  · exact .positive listed

theorem isConjunction_productExpr (among : ∀ l ∈ ls, l.1 ∈ vars) :
    (productExpr ls).shape.IsConjunction vars := by
  cases ls with
  | nil => exact .empty
  | cons l ls =>
    refine Expr.isConjunction_foldl ?_
    rw [← List.map_cons, List.forall_mem_map]
    exact fun l mem => isConjunction_literalExpr (among l mem)

/-- Only the product without literals is written as the constant. -/
theorem product_eq_one_iff (named : ∀ l ∈ ls, Token.spellsName l.1 = true) :
    product ls = "1" ↔ ls = [] := by
  have constant : product [] = "1" := rfl
  refine ⟨fun text => ?_, fun empty => by rw [empty, constant]⟩
  obtain ⟨u, read, shape⟩ := exists_ofText_product named
  obtain ⟨u', read', shape'⟩ := @exists_ofText_product [] (by simp)
  rw [text, ← constant, read', Except.ok.injEq] at read
  -- The two texts are read alike, but the constant stays true where a literal is false.
  have same : ∀ v, holds v ls = holds v [] := fun v => by
    rw [← eval_productExpr, ← eval_productExpr, ← shape, ← shape', read]
  cases ls with
  | nil => rfl
  | cons l ls =>
    have refuted := same fun _ => !l.2
    simp [holds] at refuted

/-! ### The literals of a term -/

/-- A variable has one value at all of some row numbers. -/
def IsConstantOn (ms : List Int) (vars : List String) (x : String) : Prop :=
  ∃ b, ∀ m ∈ ms, (assignment m vars).get? x = some b

instance : Decidable (IsConstantOn ms vars x) :=
  inferInstanceAs (Decidable (∃ b, ∀ m ∈ ms, (assignment m vars).get? x = some b))

section Literals

variable (nodup : vars.Nodup) (nonempty : ms ≠ [])
include nodup nonempty

/-- The literals of a term are those that are true at all of its minterms. -/
theorem mem_literals_iff_forall : (x, b) ∈ literals ms vars ↔
    x ∈ vars ∧ ∀ m ∈ ms, (assignment m vars).get? x = some b := by
  rw [mem_literals_iff]
  constructor
  · rintro ⟨place, named, common⟩
    refine ⟨TruthTable.mem_of_mem_placed named, fun m mem => ?_⟩
    rw [TruthTable.get?_assignment_of_placed nodup named,
      (commonBit?_eq_some_iff.mp common).2 m mem]
  · rintro ⟨declared, each⟩
    obtain ⟨place, named⟩ := TruthTable.exists_placed_of_mem declared
    refine ⟨place, named, commonBit?_eq_some_iff.mpr ⟨nonempty, fun m mem => ?_⟩⟩
    have value := each m mem
    rwa [TruthTable.get?_assignment_of_placed nodup named, Option.some.injEq] at value

theorem literals_eq_nil_iff : literals ms vars = [] ↔ ∀ x ∈ vars, ¬ IsConstantOn ms vars x := by
  rw [List.eq_nil_iff_forall_not_mem]
  constructor
  · rintro absent x declared ⟨b, each⟩
    exact absent (x, b) ((mem_literals_iff_forall nodup nonempty).mpr ⟨declared, each⟩)
  · rintro varies ⟨x, b⟩ literal
    obtain ⟨declared, each⟩ := (mem_literals_iff_forall nodup nonempty).mp literal
    exact varies x declared ⟨b, each⟩

/-- What a conjunction says at all minterms follows from the literals of their term. -/
theorem eval?_of_isConjunction {g : Formula} (conjunction : g.IsConjunction vars)
    (trueAt : g.TrueAt vars ms) (agrees : ∀ l ∈ literals ms vars, σ l.1 = some l.2) :
    g.eval? σ = .ok true := by
  -- A literal of the conjunction is true at all minterms, so it is one of the term.
  have kept : ∀ {x b}, x ∈ vars → (∀ m ∈ ms, (assignment m vars).get? x = some b) →
      σ x = some b := fun {x b} declared each =>
    agrees (x, b) ((mem_literals_iff_forall nodup nonempty).mpr ⟨declared, each⟩)
  induction conjunction with
  | empty => rfl
  | positive listed =>
    rw [Formula.eval?_var_iff]
    exact kept listed fun m mem => Formula.eval?_var_iff.mp (trueAt m mem)
  | negative listed =>
    rw [Formula.eval?_not_iff, Formula.eval?_var_iff]
    refine kept listed fun m mem => ?_
    exact Formula.eval?_var_iff.mp (Formula.eval?_not_iff.mp (trueAt m mem))
  | and _ _ ihl ihr =>
    have both := fun m mem => Formula.eval?_and_iff.mp (trueAt m mem)
    exact Formula.eval?_and_iff.mpr
      ⟨ihl fun m mem => (both m mem).1, ihr fun m mem => (both m mem).2⟩

/-- The product of the literals of a term is the strongest conjunction at its minterms. -/
theorem isStrongest_literals :
    (productExpr (literals ms vars)).shape.IsStrongest vars ms where
  isConjunction := isConjunction_productExpr fun _ mem => mem_of_mem_literals mem
  trueAt m mem := by
    rw [eval?_productExpr_iff]
    rintro ⟨x, b⟩ literal
    exact ((mem_literals_iff_forall nodup nonempty).mp literal).2 m mem
  implies g conjunction trueAt σ value :=
    eval?_of_isConjunction nodup nonempty conjunction trueAt (eval?_productExpr_iff.mp value)

end Literals

/-! ### The rows where a term is true -/

/-- A number has the digits that are given at some places. -/
def HasDigits (given : Nat → Option Bool) (n m : Nat) : Prop :=
  ∀ place < n, ∀ b, given place = some b → m.testBit place = b

instance {given : Nat → Option Bool} : Decidable (HasDigits given n m) :=
  inferInstanceAs (Decidable (∀ place < n, ∀ b, given place = some b → m.testBit place = b))

theorem hasDigits_succ_iff {given : Nat → Option Bool} (d : Bool) (less : m < 2 ^ n) :
    HasDigits given (n + 1) (2 ^ n * d.toNat + m) ↔ given n ≠ some (!d) ∧ HasDigits given n m := by
  have bit : ∀ place, (2 ^ n * d.toNat + m).testBit place =
      if place < n then m.testBit place else d.toNat.testBit (place - n) :=
    Nat.testBit_two_pow_mul_add _ less
  have first : (2 ^ n * d.toNat + m).testBit n = d := by
    rw [bit, if_neg (Nat.lt_irrefl n), Nat.sub_self]
    cases d <;> rfl
  rw [HasDigits, Nat.forall_lt_succ_right, and_comm, first]
  refine and_congr ?_ (forall₂_congr fun place below => ?_)
  · cases given n with
    | none => simp
    | some b => simp [Bool.eq_not, eq_comm]
  · rw [bit, if_pos below]

/-- Half of the numbers begin with a digit. If the other one is given, none of them counts. -/
theorem count_hasDigits_half (given : Nat → Option Bool) (n : Nat) (d : Bool) :
    Nat.count (fun m => HasDigits given (n + 1) (2 ^ n * d.toNat + m)) (2 ^ n) =
      if given n = some (!d) then 0 else Nat.count (HasDigits given n) (2 ^ n) := by
  split
  next refused =>
    rw [Nat.count_iff_forall_not]
    intro m less agrees
    exact ((hasDigits_succ_iff d less).mp agrees).1 refused
  next allowed =>
    refine List.countP_congr fun m mem => ?_
    rw [decide_eq_true_iff, decide_eq_true_iff]
    exact (hasDigits_succ_iff d (List.mem_range.mp mem)).trans (and_iff_right allowed)

/-- Numbers with given digits are as many as there are values for the other digits. -/
theorem count_hasDigits (given : Nat → Option Bool) (n : Nat) :
    Nat.count (HasDigits given n) (2 ^ n) =
      2 ^ Nat.count (fun place => given place = none) n := by
  induction n with
  | zero => rfl
  | succ n ih =>
    have zeros := count_hasDigits_half given n false
    have ones := count_hasDigits_half given n true
    simp only [Bool.toNat_false, Nat.mul_zero, Nat.zero_add] at zeros
    simp only [Bool.toNat_true, Nat.mul_one] at ones
    rw [Nat.pow_succ, Nat.mul_two, Nat.count_add, Nat.count_succ, zeros, ones, ih]
    -- A first digit that is given leaves one half, any other one leaves both.
    cases given n with
    | none => simp [Nat.pow_succ, Nat.mul_two]
    | some b => cases b <;> simp

/-- The row numbers at which all of some literals are true. -/
def trueRows (vars : List String) (ls : List (String × Bool)) : Finset Int :=
  ((Finset.range (2 ^ vars.length)).filter fun m : Nat => holds (valuation m vars) ls = true).map
    Nat.castEmbedding

theorem natCast_mem_trueRows :
    (m : Int) ∈ trueRows vars ls ↔ m < 2 ^ vars.length ∧ holds (valuation m vars) ls = true := by
  refine (Finset.mem_map' Nat.castEmbedding).trans ?_
  rw [Finset.mem_filter, Finset.mem_range]

/-- The number of variables that have different values at some row numbers. -/
def varying (ms : List Int) (vars : List String) : Nat :=
  vars.countP fun x => ¬ IsConstantOn ms vars x

section Rows

variable (nodup : vars.Nodup) (nonempty : ms ≠ [])
include nodup nonempty

theorem isConstantOn_iff (named : (x, place) ∈ TruthTable.placed vars) :
    IsConstantOn ms vars x ↔ commonBit? ms place ≠ none := by
  rw [Option.ne_none_iff_exists']
  refine exists_congr fun b => ?_
  simp only [commonBit?_eq_some_iff, nonempty, ne_eq, not_false_eq_true, true_and,
    TruthTable.get?_assignment_of_placed nodup named, Option.some.injEq]

/-- Distinct variables have places of their own, so they can be counted by their places. -/
theorem varying_eq :
    varying ms vars = Nat.count (fun place => commonBit? ms place = none) vars.length := by
  calc
    vars.countP (fun x => ¬ IsConstantOn ms vars x)
      = ((TruthTable.placed vars).map Prod.fst).countP fun x => ¬ IsConstantOn ms vars x := by
        rw [TruthTable.map_fst_placed]
    _ = ((TruthTable.placed vars).map Prod.snd).countP fun k => commonBit? ms k = none := by
        rw [List.countP_map, List.countP_map]
        refine List.countP_congr fun p named => ?_
        simp [isConstantOn_iff nodup nonempty named]
    _ = Nat.count (fun place => commonBit? ms place = none) vars.length := by
        rw [TruthTable.map_snd_placed, List.countP_reverse, Nat.count]

/-- A term is true at as many rows as there are values for the varying variables. -/
theorem card_trueRows : (trueRows vars (literals ms vars)).card = 2 ^ varying ms vars := by
  have digits : ∀ m : Nat, holds (valuation m vars) (literals ms vars) = true ↔
      HasDigits (commonBit? ms) vars.length m := fun m => holds_literals_iff_digits nodup ms
  rw [trueRows, Finset.card_map, ← Nat.count_eq_card_filter_range, varying_eq nodup nonempty]
  simp only [digits]
  exact count_hasDigits (commonBit? ms) vars.length

variable (rows : ∀ m ∈ ms, 0 ≤ m ∧ m < 2 ^ vars.length)
include rows

/-- The minterms of a term are among the rows where it is true. -/
theorem toFinset_subset_trueRows : ms.toFinset ⊆ trueRows vars (literals ms vars) := by
  intro m mem
  rw [List.mem_toFinset] at mem
  obtain ⟨natural, less⟩ := rows m mem
  lift m to Nat using natural
  refine natCast_mem_trueRows.mpr ⟨by exact_mod_cast less, ?_⟩
  rw [holds, List.all_eq_true]
  rintro ⟨x, b⟩ literal
  have value := ((mem_literals_iff_forall nodup nonempty).mp literal).2 m mem
  rw [valuation, value, Option.getD_some, beq_self_eq_true]

/-- A term is true only at its minterms exactly if these are as many as there are values for the
varying variables. -/
theorem card_toFinset_eq_iff : ms.toFinset.card = 2 ^ varying ms vars ↔
    ∀ m : Nat, m < 2 ^ vars.length →
      holds (valuation m vars) (literals ms vars) = decide ((m : Int) ∈ ms) := by
  have listed := toFinset_subset_trueRows nodup nonempty rows
  -- The minterms are as many as the rows at which the term is true exactly if they are all of them.
  rw [← card_trueRows nodup nonempty]
  constructor
  · intro many m less
    have same := Finset.eq_of_subset_of_card_le listed many.ge
    rw [Bool.eq_iff_iff, decide_eq_true_eq, ← List.mem_toFinset, same, natCast_mem_trueRows]
    exact (and_iff_right less).symm
  · intro only
    refine congrArg Finset.card (listed.antisymm fun m mem => ?_)
    obtain ⟨k, -, rfl⟩ := Finset.mem_map.mp mem
    obtain ⟨less, isTrue⟩ := natCast_mem_trueRows.mp mem
    rw [only k less, decide_eq_true_eq] at isTrue
    exact List.mem_toFinset.mpr isTrue

end Rows

/-! ### Terms -/

/-- **Terms are strongest conjunctions.** Over distinct names the term of some row numbers is read
as the strongest conjunction of literals that is true at them. It is `1` exactly if no variable is
constant on them, and it is true at no others exactly if they are, without repetitions, as many as
there are values for the variables that vary. -/
theorem term_isStrongest (vars : List String) (nodup : vars.Nodup)
    (named : ∀ x ∈ vars, Token.spellsName x = true) (ms : List Int) (nonempty : ms ≠ [])
    (rows : ∀ m ∈ ms, 0 ≤ m ∧ m < 2 ^ vars.length) :
    (∃ u, Expr.ofText (term ms vars) = .ok u ∧ u.shape.IsStrongest vars ms) ∧
    (term ms vars = "1" ↔ ∀ x ∈ vars, ¬ IsConstantOn ms vars x) ∧
    (ms.toFinset.card = 2 ^ varying ms vars ↔ ∀ m < 2 ^ vars.length,
      HasTruthAt vars m (term ms vars) (decide ((m : Int) ∈ ms))) := by
  have among : ∀ l ∈ literals ms vars, l.1 ∈ vars := fun _ mem => mem_of_mem_literals mem
  have spelled : ∀ l ∈ literals ms vars, Token.spellsName l.1 = true := fun l mem =>
    named l.1 (among l mem)
  refine ⟨?_, ?_, ?_⟩
  · obtain ⟨u, read, shape⟩ := exists_ofText_product spelled
    refine ⟨u, read, ?_⟩
    rw [shape]
    exact isStrongest_literals nodup nonempty
  · exact (product_eq_one_iff spelled).trans (literals_eq_nil_iff nodup nonempty)
  · rw [card_toFinset_eq_iff nodup nonempty rows]
    refine forall₂_congr fun m _ => ?_
    have value := hasTruthAt_product named among m
    constructor
    · intro same
      rwa [same] at value
    · exact value.unique

/-- Three of five variables are constant on these minterms, one of which is listed twice. -/
theorem term_isStrongest_scattered :
    let vars := ["P", "Q1", "R", "Q10", "Z0"]
    let ms := [18, 2, 18, 3, 19]
    term ms vars = "¬Q1∧¬R∧Q10" ∧
      (∃ u, Expr.ofText (term ms vars) = .ok u ∧ u.shape.IsStrongest vars ms) ∧
      ∀ m < 2 ^ 5, HasTruthAt vars m (term ms vars) (decide ((m : Int) ∈ ms)) :=
  have strongest := term_isStrongest ["P", "Q1", "R", "Q10", "Z0"] (by decide) (by decide)
    [18, 2, 18, 3, 19] (by decide) (by decide)
  ⟨by decide, strongest.1, strongest.2.2.mp (by decide)⟩

end Karnaugh

end Sentential
