import Sentential.Proofs.Karnaugh.Cover
import Sentential.Proofs.Table.Assignment

/-!
# Rectangles and subcubes

The rows and the columns of a map are numbered in Gray code. On a circle of two or four numbers in
Gray code the intervals with sides one, two or four are exactly the subcubes: an interval consists
of all numbers that have the digits on which its members agree, and if one of these digits is left
free the result is an interval again, of twice the length. A rectangle is a pair of intervals, so
the same is true of the minterms in a rectangle.

## Main definitions

* `Karnaugh.gray` — the Gray code of a number
* `Karnaugh.Fixes` — some numbers agree on a digit
* `Karnaugh.Rectangle.codes` — the minterms of a rectangle, as numbers

## Main results

* `Karnaugh.mem_codes_of_fixes` — a rectangle has all minterms with its digits
* `Karnaugh.exists_larger` — each digit of a rectangle can be left free
-/

namespace Sentential.Karnaugh

variable {d dr dc place k x : Nat} {b : Bool} {a numbers : List Nat} {q q' : Rectangle}

/-- The Gray code of a number: the codes of neighbours differ in one digit. -/
def gray (i : Nat) : Nat := i ^^^ (i >>> 1)

/-- All of the numbers have the same digit at a place. -/
def Fixes (numbers : List Nat) (place : Nat) (b : Bool) : Prop :=
  ∀ x ∈ numbers, x.testBit place = b

instance : Decidable (Fixes numbers place b) := inferInstanceAs (Decidable (∀ x ∈ numbers, _))

/-! ### One axis -/

theorem gray_lt (less : k < 2 ^ d) : gray k < 2 ^ d := by
  have shifted : k >>> 1 < 2 ^ d := Nat.lt_of_le_of_lt (Nat.shiftRight_le k 1) less
  exact Nat.xor_lt_two_pow less shifted

theorem exists_gray_eq (small : d = 1 ∨ d = 2) (less : x < 2 ^ d) : ∃ k < 2 ^ d, gray k = x := by
  rcases small with rfl | rfl <;> revert x <;> decide

theorem lt_of_mem_arc (small : d = 1 ∨ d = 2) (side : a ∈ arcs (2 ^ d)) (mem : k ∈ a) :
    k < 2 ^ d := by
  have all : ∀ a ∈ arcs (2 ^ d), ∀ k ∈ a, k < 2 ^ d := by
    rcases small with rfl | rfl <;> decide
  exact all a side k mem

theorem ne_nil_of_mem_arcs (small : d = 1 ∨ d = 2) (side : a ∈ arcs (2 ^ d)) : a ≠ [] := by
  have all : ∀ a ∈ arcs (2 ^ d), a ≠ [] := by
    rcases small with rfl | rfl <;> decide
  exact all a side

/-- An interval consists of all numbers with the digits on which its codes agree. -/
theorem mem_gray_of_fixes (small : d = 1 ∨ d = 2) (side : a ∈ arcs (2 ^ d)) (less : x < 2 ^ d)
    (fits : ∀ place < d, ∀ b, Fixes (a.map gray) place b → x.testBit place = b) :
    x ∈ a.map gray := by
  -- An axis has at most four numbers, so there are few enough intervals to go through.
  have all : ∀ a ∈ arcs (2 ^ d), ∀ x < 2 ^ d,
      (∀ place < d, ∀ b, Fixes (a.map gray) place b → x.testBit place = b) → x ∈ a.map gray := by
    rcases small with rfl | rfl <;> decide
  exact all a side x less fits

/-- All digits on which some numbers agree, except that at one place, are digits on which others
agree. -/
def FixesBut (place d : Nat) (numbers others : List Nat) : Prop :=
  ∀ k < d, k ≠ place → ∀ b, Fixes numbers k b → Fixes others k b

instance {others : List Nat} : Decidable (FixesBut place d numbers others) :=
  inferInstanceAs (Decidable (∀ k < d, k ≠ place → ∀ b, Fixes numbers k b → Fixes others k b))

set_option synthInstance.maxSize 256 in
/-- An interval without one of its digits is a longer interval. -/
theorem exists_longer (small : d = 1 ∨ d = 2) (side : a ∈ arcs (2 ^ d)) (less : place < d)
    (fixed : Fixes (a.map gray) place b) :
    ∃ a' ∈ arcs (2 ^ d), a.length < a'.length ∧ (∀ k ∈ a, k ∈ a') ∧
      FixesBut place d (a.map gray) (a'.map gray) := by
  have all : ∀ a ∈ arcs (2 ^ d), ∀ place < d, ∀ b, Fixes (a.map gray) place b →
      ∃ a' ∈ arcs (2 ^ d), a.length < a'.length ∧ (∀ k ∈ a, k ∈ a') ∧
        FixesBut place d (a.map gray) (a'.map gray) := by
    rcases small with rfl | rfl <;> decide
  exact all a side place less b fixed

/-! ### Both axes -/

variable {p : Place}

/-- The minterm at a place, when the columns are numbered by `dc` digits. -/
def mintermAt (dc : Nat) (p : Place) : Nat := 2 ^ dc * gray p.1 + gray p.2

theorem testBit_mintermAt (column : p.2 < 2 ^ dc) (place : Nat) :
    (mintermAt dc p).testBit place =
      if place < dc then (gray p.2).testBit place else (gray p.1).testBit (place - dc) :=
  Nat.testBit_two_pow_mul_add _ (gray_lt column) place

theorem mintermAt_lt (row : p.1 < 2 ^ dr) (column : p.2 < 2 ^ dc) :
    mintermAt dc p < 2 ^ (dr + dc) := by
  have high := gray_lt row
  have low := gray_lt column
  calc
    mintermAt dc p < 2 ^ dc * gray p.1 + 2 ^ dc := Nat.add_lt_add_left low _
    _ = 2 ^ dc * (gray p.1 + 1) := (Nat.mul_succ _ _).symm
    _ ≤ 2 ^ dc * 2 ^ dr := Nat.mul_le_mul_left _ high
    _ = 2 ^ (dr + dc) := by rw [Nat.pow_add, Nat.mul_comm]

/-- Every minterm stands at some place. -/
theorem exists_mintermAt_eq (smallR : dr = 1 ∨ dr = 2) (smallC : dc = 1 ∨ dc = 2)
    (less : x < 2 ^ (dr + dc)) :
    ∃ p : Place, p.1 < 2 ^ dr ∧ p.2 < 2 ^ dc ∧ mintermAt dc p = x := by
  have high : x / 2 ^ dc < 2 ^ dr := by
    rw [Nat.pow_add] at less
    exact Nat.div_lt_of_lt_mul (by rwa [Nat.mul_comm])
  have low : x % 2 ^ dc < 2 ^ dc := Nat.mod_lt _ (Nat.two_pow_pos dc)
  obtain ⟨r, row, codeR⟩ := exists_gray_eq smallR high
  obtain ⟨c, column, codeC⟩ := exists_gray_eq smallC low
  refine ⟨(r, c), row, column, ?_⟩
  rw [mintermAt, codeR, codeC]
  exact Nat.div_add_mod x (2 ^ dc)

/-- The minterms in a rectangle. -/
def Rectangle.codes (dc : Nat) (q : Rectangle) : List Nat := q.places.map (mintermAt dc)

theorem mem_codes : x ∈ q.codes dc ↔ ∃ p, p.1 ∈ q.rows ∧ p.2 ∈ q.columns ∧ mintermAt dc p = x := by
  simp only [Rectangle.codes, List.mem_map, Rectangle.mem_places, and_assoc]

theorem fixes_codes : Fixes (q.codes dc) place b ↔
    ∀ r ∈ q.rows, ∀ c ∈ q.columns, (mintermAt dc (r, c)).testBit place = b := by
  constructor
  · intro fixed r row c column
    exact fixed _ (mem_codes.mpr ⟨(r, c), row, column, rfl⟩)
  · intro each x mem
    obtain ⟨p, row, column, rfl⟩ := mem_codes.mp mem
    exact each p.1 row p.2 column

theorem fixes_map_gray : Fixes (a.map gray) place b ↔ ∀ k ∈ a, (gray k).testBit place = b :=
  List.forall_mem_map

section Rectangles

variable (smallR : dr = 1 ∨ dr = 2) (smallC : dc = 1 ∨ dc = 2)
variable (listed : q ∈ rectangles (2 ^ dr) (2 ^ dc))
include smallR smallC listed

theorem codes_ne_nil : q.codes dc ≠ [] := by
  obtain ⟨rows, columns⟩ := mem_rectangles.mp listed
  obtain ⟨r, row⟩ := List.exists_mem_of_ne_nil _ (ne_nil_of_mem_arcs smallR rows)
  obtain ⟨c, column⟩ := List.exists_mem_of_ne_nil _ (ne_nil_of_mem_arcs smallC columns)
  exact List.ne_nil_of_mem (mem_codes.mpr ⟨(r, c), row, column, rfl⟩)

theorem lt_of_mem_codes (mem : x ∈ q.codes dc) : x < 2 ^ (dr + dc) := by
  obtain ⟨rows, columns⟩ := mem_rectangles.mp listed
  obtain ⟨p, row, column, rfl⟩ := mem_codes.mp mem
  exact mintermAt_lt (lt_of_mem_arc smallR rows row) (lt_of_mem_arc smallC columns column)

/-- The last digits of the minterms in a rectangle are those of the columns. -/
theorem fixes_codes_iff_columns (less : place < dc) :
    Fixes (q.codes dc) place b ↔ Fixes (q.columns.map gray) place b := by
  obtain ⟨rows, columns⟩ := mem_rectangles.mp listed
  rw [fixes_codes, fixes_map_gray]
  have digit : ∀ r, ∀ c ∈ q.columns,
      (mintermAt dc (r, c)).testBit place = (gray c).testBit place := by
    intro r c mem
    rw [testBit_mintermAt (lt_of_mem_arc smallC columns mem), if_pos less]
  constructor
  · intro each c mem
    obtain ⟨r, row⟩ := List.exists_mem_of_ne_nil _ (ne_nil_of_mem_arcs smallR rows)
    rw [← digit r c mem]
    exact each r row c mem
  · intro each r _ c mem
    rw [digit r c mem]
    exact each c mem

omit smallR in
/-- The first digits of the minterms in a rectangle are those of the rows. -/
theorem fixes_codes_iff_rows :
    Fixes (q.codes dc) (dc + place) b ↔ Fixes (q.rows.map gray) place b := by
  obtain ⟨rows, columns⟩ := mem_rectangles.mp listed
  rw [fixes_codes, fixes_map_gray]
  have digit : ∀ r, ∀ c ∈ q.columns,
      (mintermAt dc (r, c)).testBit (dc + place) = (gray r).testBit place := by
    intro r c mem
    rw [testBit_mintermAt (lt_of_mem_arc smallC columns mem), if_neg (by omega),
      Nat.add_sub_cancel_left]
  constructor
  · intro each r mem
    obtain ⟨c, column⟩ := List.exists_mem_of_ne_nil _ (ne_nil_of_mem_arcs smallC columns)
    rw [← digit r c column]
    exact each r mem c column
  · intro each r mem c column
    rw [digit r c column]
    exact each r mem

/-- A rectangle has all minterms with the digits on which it agrees. -/
theorem mem_codes_of_fixes (less : x < 2 ^ (dr + dc))
    (fits : ∀ place < dr + dc, ∀ b, Fixes (q.codes dc) place b → x.testBit place = b) :
    x ∈ q.codes dc := by
  obtain ⟨rows, columns⟩ := mem_rectangles.mp listed
  obtain ⟨p, row, column, rfl⟩ := exists_mintermAt_eq smallR smallC less
  -- The first digits put the row into the interval of rows, the last ones the column.
  have inRows : gray p.1 ∈ q.rows.map gray := by
    refine mem_gray_of_fixes smallR rows (gray_lt row) fun place below b fixed => ?_
    have agrees := fits (dc + place) (by omega) b
      ((fixes_codes_iff_rows smallC listed).mpr fixed)
    rwa [testBit_mintermAt column, if_neg (by omega), Nat.add_sub_cancel_left] at agrees
  have inColumns : gray p.2 ∈ q.columns.map gray := by
    refine mem_gray_of_fixes smallC columns (gray_lt column) fun place below b fixed => ?_
    have agrees := fits place (by omega) b
      ((fixes_codes_iff_columns smallR smallC listed below).mpr fixed)
    rwa [testBit_mintermAt column, if_pos below] at agrees
  obtain ⟨r, memR, codeR⟩ := List.mem_map.mp inRows
  obtain ⟨c, memC, codeC⟩ := List.mem_map.mp inColumns
  exact mem_codes.mpr ⟨(r, c), memR, memC, by rw [mintermAt, mintermAt, codeR, codeC]⟩

/-- Rectangles are compared row by row and column by column. -/
theorem fixesBut_codes (listed' : q' ∈ rectangles (2 ^ dr) (2 ^ dc))
    (rows : ∀ k < dr, dc + k ≠ place → ∀ b, Fixes (q.rows.map gray) k b →
      Fixes (q'.rows.map gray) k b)
    (columns : FixesBut place dc (q.columns.map gray) (q'.columns.map gray)) :
    FixesBut place (dr + dc) (q.codes dc) (q'.codes dc) := by
  intro k within other b agreed
  by_cases low : k < dc
  · rw [fixes_codes_iff_columns smallR smallC listed low] at agreed
    rw [fixes_codes_iff_columns smallR smallC listed' low]
    exact columns k low other b agreed
  · obtain ⟨k, rfl⟩ := Nat.exists_eq_add_of_le (Nat.le_of_not_lt low)
    rw [fixes_codes_iff_rows smallC listed] at agreed
    rw [fixes_codes_iff_rows smallC listed']
    exact rows k (by omega) other b agreed

/-- If one of the digits on which a rectangle agrees is left free, there is a larger rectangle that
agrees on the others. -/
theorem exists_larger (less : place < dr + dc) (fixed : Fixes (q.codes dc) place b) :
    ∃ q' ∈ rectangles (2 ^ dr) (2 ^ dc), q.area < q'.area ∧ q.places ⊆ q'.places ∧
      FixesBut place (dr + dc) (q.codes dc) (q'.codes dc) := by
  have sides := mem_rectangles.mp listed
  by_cases low : place < dc
  · -- The digit belongs to the columns, so these are extended.
    rw [fixes_codes_iff_columns smallR smallC listed low] at fixed
    obtain ⟨columns, side, longer, inside, others⟩ := exists_longer smallC sides.2 low fixed
    have listed' : ⟨q.rows, columns⟩ ∈ rectangles (2 ^ dr) (2 ^ dc) :=
      mem_rectangles.mpr ⟨sides.1, side⟩
    refine ⟨⟨q.rows, columns⟩, listed', ?_, ?_, ?_⟩
    · have rows := List.length_pos_iff.mpr (ne_nil_of_mem_arcs smallR sides.1)
      exact Nat.mul_lt_mul_of_pos_left longer rows
    · intro p mem
      rw [Rectangle.mem_places] at mem ⊢
      exact ⟨mem.1, inside p.2 mem.2⟩
    · exact fixesBut_codes smallR smallC listed listed' (fun _ _ _ _ => id) others
  · -- The digit belongs to the rows.
    obtain ⟨place, rfl⟩ := Nat.exists_eq_add_of_le (Nat.le_of_not_lt low)
    rw [fixes_codes_iff_rows smallC listed] at fixed
    obtain ⟨rows, side, longer, inside, others⟩ :=
      exists_longer smallR sides.1 (by omega) fixed
    have listed' : ⟨rows, q.columns⟩ ∈ rectangles (2 ^ dr) (2 ^ dc) :=
      mem_rectangles.mpr ⟨side, sides.2⟩
    refine ⟨⟨rows, q.columns⟩, listed', ?_, ?_, ?_⟩
    · have columns := List.length_pos_iff.mpr (ne_nil_of_mem_arcs smallC sides.2)
      exact Nat.mul_lt_mul_of_pos_right longer columns
    · intro p mem
      rw [Rectangle.mem_places] at mem ⊢
      exact ⟨inside p.1 mem.1, mem.2⟩
    · refine fixesBut_codes smallR smallC listed listed' ?_ fun _ _ _ _ => id
      intro k less other
      exact others k less (by omega)

end Rectangles

/-! ### The grid of a map -/

/-- The minterms under the labels of rows and columns. -/
def mintermGrid (rowLabels columnLabels : List String) : Grid Int :=
  .ofRows 0 (rowLabels.map fun r => columnLabels.map fun c => ((labelValue (r ++ c) : Nat) : Int))

theorem exists_grayCode?_eq (small : d = 1 ∨ d = 2) : ∃ labels, grayCode? d = some labels := by
  rcases small with rfl | rfl <;> exact ⟨_, rfl⟩

/-- The labels number the rows and columns in Gray code. -/
theorem mintermGrid_eq {rowLabels columnLabels : List String} (smallR : dr = 1 ∨ dr = 2)
    (smallC : dc = 1 ∨ dc = 2) (rows : grayCode? dr = some rowLabels)
    (columns : grayCode? dc = some columnLabels) :
    (mintermGrid rowLabels columnLabels).height = 2 ^ dr ∧
      (mintermGrid rowLabels columnLabels).width = 2 ^ dc ∧
      ∀ r < 2 ^ dr, ∀ c < 2 ^ dc,
        (mintermGrid rowLabels columnLabels).cell r c = mintermAt dc (r, c) := by
  rcases smallR with rfl | rfl <;> rcases smallC with rfl | rfl <;>
    cases rows <;> cases columns <;> decide

end Sentential.Karnaugh
