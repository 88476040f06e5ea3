import Sentential.Proofs.Karnaugh.Layout
import Sentential.Proofs.Karnaugh.Reading

/-!
# Terms of a cover are prime implicants

The literals of a group are the digits on which its minterms agree. So the term of a group is true
at exactly its minterms. If a literal is left out, the term is true on a larger rectangle; this one
has a false cell, as otherwise the search would not have taken the smaller one.

## Main definitions

* `Karnaugh.Grid.Shows` — the cells of a grid are the values of a function of the minterm

## Main results

* `Karnaugh.holds_literalsOf` — where the term of a rectangle is true
* `Karnaugh.any_holds_cover` — the sum of the terms of a cover is the function
* `Karnaugh.exists_false_of_erase` — where it is wrongly true without one of its literals
-/

namespace Sentential.Karnaugh

open TruthTable (valuation assignment)

variable {dr dc m place : Nat} {b : Bool} {q : Rectangle} {values : Grid Bool} {f : Nat → Bool}
variable {numbers : List Nat} {vars : List String} {x : String} {l : String × Bool}

/-- The cells of the grid are the values of a function at their minterms. -/
structure Grid.Shows (values : Grid Bool) (dr dc : Nat) (f : Nat → Bool) : Prop where
  height_eq : values.height = 2 ^ dr
  width_eq : values.width = 2 ^ dc
  cell_eq : ∀ r < 2 ^ dr, ∀ c < 2 ^ dc, values.cell r c = f (mintermAt dc (r, c))

/-! ### Covers -/

section Cover

variable (smallR : dr = 1 ∨ dr = 2) (smallC : dc = 1 ∨ dc = 2) (shows : values.Shows dr dc f)
include smallR smallC shows

theorem trueOn_iff (listed : q ∈ rectangles (2 ^ dr) (2 ^ dc)) :
    q.TrueOn values ↔ ∀ m ∈ q.codes dc, f m = true := by
  have sides := mem_rectangles.mp listed
  have cell : ∀ p ∈ q.places, values.cell p.1 p.2 = f (mintermAt dc p) := by
    intro p mem
    rw [Rectangle.mem_places] at mem
    exact shows.cell_eq _ (lt_of_mem_arc smallR sides.1 mem.1) _
      (lt_of_mem_arc smallC sides.2 mem.2)
  rw [Rectangle.codes, List.forall_mem_map]
  constructor
  · intro allTrue p mem
    rw [← cell p mem]
    exact allTrue p mem
  · intro each p mem
    rw [cell p mem]
    exact each p mem

omit smallR smallC in
theorem mem_rectangles_of_cover (taken : q ∈ cover values) :
    q ∈ rectangles (2 ^ dr) (2 ^ dc) := by
  have listed := (mem_of_mem_cover taken).1
  rwa [shows.height_eq, shows.width_eq] at listed

/-- The minterms of a taken rectangle are minterms of the function. -/
theorem eq_true_of_mem_cover (taken : q ∈ cover values) (mem : m ∈ q.codes dc) : f m = true :=
  (trueOn_iff smallR smallC shows (mem_rectangles_of_cover shows taken)).mp
    (mem_of_mem_cover taken).2 m mem

/-- Every minterm of the function is in a taken rectangle. -/
theorem exists_mem_codes (less : m < 2 ^ (dr + dc)) (isTrue : f m = true) :
    ∃ q ∈ cover values, m ∈ q.codes dc := by
  obtain ⟨⟨r, c⟩, row, column, rfl⟩ := exists_mintermAt_eq smallR smallC less
  have cell : values.cell r c = true := by
    rw [shows.cell_eq r row c column]
    exact isTrue
  rw [← shows.height_eq] at row
  rw [← shows.width_eq] at column
  obtain ⟨q, taken, mem⟩ := exists_mem_cover row column cell
  exact ⟨q, taken, List.mem_map_of_mem mem⟩

/-- Some number has all digits of a taken rectangle but one and is not a minterm of the function. -/
theorem exists_false_of_fixes (taken : q ∈ cover values) (less : place < dr + dc)
    (fixed : Fixes (q.codes dc) place b) :
    ∃ m < 2 ^ (dr + dc), f m = false ∧
      ∀ k < dr + dc, k ≠ place → ∀ b, Fixes (q.codes dc) k b → m.testBit k = b := by
  have listed := mem_rectangles_of_cover shows taken
  obtain ⟨q', listed', larger, inside, others⟩ := exists_larger smallR smallC listed less fixed
  -- Were the larger rectangle true, the search would have tried it first.
  have notTrue : ¬ ∀ m ∈ q'.codes dc, f m = true := by
    rw [← trueOn_iff smallR smallC shows listed']
    intro allTrue
    have listed'' : q' ∈ rectangles values.height values.width := by
      rwa [shows.height_eq, shows.width_eq]
    exact notMem_cover_of_larger listed'' allTrue inside larger taken
  obtain ⟨m, notImplied⟩ := not_forall.mp notTrue
  obtain ⟨mem, isFalse⟩ := Classical.not_imp.mp notImplied
  refine ⟨m, lt_of_mem_codes smallR smallC listed' mem, Bool.eq_false_iff.mpr isFalse, ?_⟩
  intro k within other b agreed
  exact others k within other b agreed m mem

end Cover

/-! ### Literals -/

theorem commonBit?_eq_some_iff {ms : List Int} :
    commonBit? ms place = some b ↔ ms ≠ [] ∧ ∀ m ∈ ms, Row.bit m place = b := by
  cases ms with
  | nil => simp [commonBit?]
  | cons x rest =>
    have agree : (rest.all fun n => Row.bit n place == Row.bit x place) = true ↔
        ∀ m ∈ rest, Row.bit m place = Row.bit x place := by
      simp only [List.all_eq_true, beq_iff_eq]
    rw [commonBit?, List.forall_mem_cons]
    by_cases same : ∀ m ∈ rest, Row.bit m place = Row.bit x place
    · rw [if_pos (agree.mpr same), Option.some.injEq]
      simp only [ne_eq, reduceCtorEq, not_false_eq_true, true_and]
      constructor
      · rintro rfl
        exact ⟨rfl, same⟩
      · exact And.left
    · rw [if_neg (agree.not.mpr same)]
      simp only [reduceCtorEq, false_iff, not_and]
      rintro - rfl
      exact same

theorem commonBit?_natCast_iff :
    commonBit? (numbers.map Nat.cast) place = some b ↔ numbers ≠ [] ∧ Fixes numbers place b := by
  rw [commonBit?_eq_some_iff, List.forall_mem_map]
  simp only [ne_eq, List.map_eq_nil_iff, Row.bit_natCast, Fixes]

theorem literals_eq (ms : List Int) (vars : List String) :
    literals ms vars = (TruthTable.placed vars).filterMap fun p =>
      (commonBit? ms p.2).map fun b => (p.1, b) := by
  induction vars with
  | nil => rfl
  | cons x rest ih =>
    rw [literals, TruthTable.placed, List.filterMap_cons, ih]
    cases commonBit? ms rest.length <;> rfl

theorem mem_literals_iff (ms : List Int) : (x, b) ∈ literals ms vars ↔
    ∃ place, (x, place) ∈ TruthTable.placed vars ∧ commonBit? ms place = some b := by
  rw [literals_eq, List.mem_filterMap]
  constructor
  · rintro ⟨⟨y, place⟩, named, found⟩
    obtain ⟨b', common, same⟩ := Option.map_eq_some_iff.mp found
    cases same
    exact ⟨place, named, common⟩
  · rintro ⟨place, named, common⟩
    exact ⟨(x, place), named, by rw [common, Option.map_some]⟩

theorem valuation_of_placed (nodup : vars.Nodup) (named : (x, place) ∈ TruthTable.placed vars) :
    valuation m vars x = m.testBit place := by
  rw [valuation, TruthTable.get?_assignment_of_placed nodup named, Option.getD_some,
    Row.bit_natCast]

theorem sublist_literals (ms : List Int) (vars : List String) :
    ((literals ms vars).map Prod.fst).Sublist vars := by
  induction vars with
  | nil => exact .slnil
  | cons x rest ih =>
    rw [literals]
    cases commonBit? ms rest.length with
    | none => exact ih.cons x
    | some b => exact ih.cons_cons x

/-- The literals of some minterms are true for the numbers with the common digits. -/
theorem holds_literals_iff_digits (nodup : vars.Nodup) (ms : List Int) :
    holds (valuation m vars) (literals ms vars) = true ↔
      ∀ place < vars.length, ∀ b, commonBit? ms place = some b → m.testBit place = b := by
  rw [holds, List.all_eq_true]
  constructor
  · intro each place less b common
    obtain ⟨x, named⟩ := TruthTable.exists_mem_placed less
    have literal : (x, b) ∈ literals ms vars := (mem_literals_iff ms).mpr ⟨place, named, common⟩
    have agrees := each _ literal
    rwa [valuation_of_placed nodup named, beq_iff_eq] at agrees
  · rintro each ⟨x, b⟩ literal
    obtain ⟨place, named, common⟩ := (mem_literals_iff ms).mp literal
    rw [valuation_of_placed nodup named, beq_iff_eq]
    exact each place (TruthTable.lt_of_mem_placed named) b common

/-- The literals on which some numbers agree are true for the numbers with the same digits. -/
theorem holds_literals_iff (nodup : vars.Nodup) (nonempty : numbers ≠ []) :
    holds (valuation m vars) (literals (numbers.map Nat.cast) vars) = true ↔
      ∀ place < vars.length, ∀ b, Fixes numbers place b → m.testBit place = b := by
  simp only [holds_literals_iff_digits nodup, commonBit?_natCast_iff, nonempty, ne_eq,
    not_false_eq_true, true_and]

/-- Without one of these literals, one digit is left free. -/
theorem holds_erase (nodup : vars.Nodup) (mem : l ∈ literals (numbers.map Nat.cast) vars) :
    ∃ place < vars.length, Fixes numbers place l.2 ∧ ∀ m : Nat,
      (∀ k < vars.length, k ≠ place → ∀ b, Fixes numbers k b → m.testBit k = b) →
        holds (valuation m vars) ((literals (numbers.map Nat.cast) vars).erase l) = true := by
  obtain ⟨x, b⟩ := l
  obtain ⟨place, named, common⟩ := (mem_literals_iff _).mp mem
  refine ⟨place, TruthTable.lt_of_mem_placed named, (commonBit?_natCast_iff.mp common).2, ?_⟩
  intro m others
  have distinct : (literals (numbers.map Nat.cast) vars).Nodup :=
    List.Pairwise.of_map Prod.fst (fun _ _ ne same => ne (congrArg Prod.fst same))
      (nodup.sublist (sublist_literals _ vars))
  rw [holds, List.all_eq_true]
  rintro ⟨y, c⟩ remains
  rw [distinct.mem_erase_iff] at remains
  obtain ⟨k, namedK, commonK⟩ := (mem_literals_iff _).mp remains.2
  rw [valuation_of_placed nodup namedK, beq_iff_eq]
  refine others k (TruthTable.lt_of_mem_placed namedK) ?_ c (commonBit?_natCast_iff.mp commonK).2
  -- The literal that was left out is the only one with its digit.
  rintro rfl
  rw [TruthTable.mem_placed_iff] at named namedK
  have name := Option.some.inj (named.symm.trans namedK)
  have sign := Option.some.inj (common.symm.trans commonK)
  exact remains.1 (by rw [name, sign])

/-! ### Terms -/

/-- The literals of a rectangle. -/
def literalsOf (dc : Nat) (vars : List String) (q : Rectangle) : List (String × Bool) :=
  literals ((q.codes dc).map Nat.cast) vars

section Terms

variable (smallR : dr = 1 ∨ dr = 2) (smallC : dc = 1 ∨ dc = 2) (nodup : vars.Nodup)
variable (count : dr + dc = vars.length)
include smallR smallC nodup count

/-- The literals of a rectangle are true at exactly its minterms. -/
theorem holds_literalsOf (listed : q ∈ rectangles (2 ^ dr) (2 ^ dc))
    (less : m < 2 ^ vars.length) :
    holds (valuation m vars) (literalsOf dc vars q) = decide (m ∈ q.codes dc) := by
  rw [Bool.eq_iff_iff, decide_eq_true_eq, literalsOf,
    holds_literals_iff nodup (codes_ne_nil smallR smallC listed), ← count]
  rw [← count] at less
  constructor
  · intro agrees
    exact mem_codes_of_fixes smallR smallC listed less agrees
  · intro mem place _ b fixed
    exact fixed m mem

variable (shows : values.Shows dr dc f)
include shows

/-- The sum of the terms of the taken rectangles is the function. -/
theorem any_holds_cover (less : m < 2 ^ vars.length) :
    ((cover values).map (literalsOf dc vars)).any (holds (valuation m vars)) = f m := by
  have truth : ∀ q ∈ cover values,
      holds (valuation m vars) (literalsOf dc vars q) = decide (m ∈ q.codes dc) := by
    intro q taken
    exact holds_literalsOf smallR smallC nodup count (mem_rectangles_of_cover shows taken) less
  rw [Bool.eq_iff_iff, List.any_eq_true]
  constructor
  · rintro ⟨ls, mem, isTrue⟩
    obtain ⟨q, taken, rfl⟩ := List.mem_map.mp mem
    rw [truth q taken] at isTrue
    exact eq_true_of_mem_cover smallR smallC shows taken (of_decide_eq_true isTrue)
  · intro isTrue
    rw [← count] at less
    obtain ⟨q, taken, mem⟩ := exists_mem_codes smallR smallC shows less isTrue
    refine ⟨_, List.mem_map_of_mem taken, ?_⟩
    rw [truth q taken]
    exact decide_eq_true mem

/-- Without one of its literals, the term of a taken rectangle is true where the function is not. -/
theorem exists_false_of_erase (taken : q ∈ cover values) (mem : l ∈ literalsOf dc vars q) :
    ∃ m < 2 ^ vars.length, f m = false ∧
      holds (valuation m vars) ((literalsOf dc vars q).erase l) = true := by
  obtain ⟨place, less, fixed, free⟩ := holds_erase nodup mem
  rw [← count] at less free ⊢
  obtain ⟨m, within, isFalse, others⟩ :=
    exists_false_of_fixes smallR smallC shows taken less fixed
  exact ⟨m, within, isFalse, free m others⟩

end Terms

end Sentential.Karnaugh
