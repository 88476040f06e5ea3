import Sentential.Karnaugh

/-!
# Greedy covers

The search takes a rectangle of true cells as soon as it covers a cell that no earlier one covers.
So the taken rectangles cover all true cells that any rectangle covers; and since the rectangles are
tried by falling area, none that is taken lies inside a larger rectangle of true cells.

## Main definitions

* `Karnaugh.Rectangle.TrueOn` — all cells of a rectangle are true
* `Karnaugh.arcs` — the intervals that are the sides of rectangles

## Main results

* `Karnaugh.exists_mem_cover` — every true cell is covered
* `Karnaugh.exists_new_of_coverFrom` — a taken rectangle covers a cell that none before it covers
* `Karnaugh.notMem_cover_of_larger` — a taken rectangle is not inside a larger one of true cells
-/

namespace Sentential.Karnaugh

variable {values : Grid Bool} {covered : List Place} {q q' : Rectangle} {qs : List Rectangle}
variable {p : Place} {h w : Nat}

/-- All cells of the rectangle are true. -/
def Rectangle.TrueOn (q : Rectangle) (values : Grid Bool) : Prop :=
  ∀ p ∈ q.places, values.cell p.1 p.2 = true

/-- The number of places of a rectangle. -/
def Rectangle.area (q : Rectangle) : Nat := q.rows.length * q.columns.length

theorem Rectangle.mem_places : p ∈ q.places ↔ p.1 ∈ q.rows ∧ p.2 ∈ q.columns := by
  obtain ⟨r, c⟩ := p
  simp [places]

/-! ### The search -/

/-- A rectangle is taken, or it has a false cell or covers nothing new. -/
theorem coverFrom_cons (values : Grid Bool) (covered : List Place) (q : Rectangle)
    (qs : List Rectangle) :
    (q.TrueOn values ∧ ¬ q.places ⊆ covered ∧
      coverFrom values covered (q :: qs) = q :: coverFrom values (covered ++ q.places) qs) ∨
    ((q.TrueOn values → q.places ⊆ covered) ∧
      coverFrom values covered (q :: qs) = coverFrom values covered qs) := by
  have trueCells : (q.places.all fun p => values.cell p.1 p.2) = true ↔ q.TrueOn values :=
    List.all_eq_true
  have known : (q.places.all fun p => decide (p ∈ covered)) = true ↔ q.places ⊆ covered := by
    simp [List.subset_def]
  by_cases taken : q.TrueOn values ∧ ¬ q.places ⊆ covered
  · refine Or.inl ⟨taken.1, taken.2, ?_⟩
    rw [coverFrom, trueCells.mpr taken.1, Bool.eq_false_iff.mpr ((not_congr known).mpr taken.2)]
    rfl
  · refine Or.inr ⟨fun allTrue => ?_, ?_⟩
    · by_cases new : q.places ⊆ covered
      · exact new
      · exact absurd ⟨allTrue, new⟩ taken
    · rw [coverFrom, if_neg]
      rwa [Bool.and_eq_true, trueCells, Bool.not_eq_true', Bool.eq_false_iff, ne_eq, known]

theorem mem_of_mem_coverFrom (taken : q ∈ coverFrom values covered qs) :
    q ∈ qs ∧ q.TrueOn values := by
  induction qs generalizing covered with
  | nil => cases taken
  | cons a qs ih =>
    rcases coverFrom_cons values covered a qs with ⟨allTrue, -, step⟩ | ⟨-, step⟩ <;>
      rw [step] at taken
    · rcases List.mem_cons.mp taken with rfl | later
      · exact ⟨List.mem_cons_self, allTrue⟩
      · exact ⟨List.mem_cons_of_mem a (ih later).1, (ih later).2⟩
    · exact ⟨List.mem_cons_of_mem a (ih taken).1, (ih taken).2⟩

/-- The taken rectangles stay in the order in which they are tried. -/
theorem sublist_coverFrom (values : Grid Bool) (covered : List Place) (qs : List Rectangle) :
    (coverFrom values covered qs).Sublist qs := by
  induction qs generalizing covered with
  | nil => exact List.Sublist.slnil
  | cons a qs ih =>
    rcases coverFrom_cons values covered a qs with ⟨-, -, step⟩ | ⟨-, step⟩ <;> rw [step]
    · exact (ih _).cons_cons a
    · exact (ih covered).cons a

/-- A taken rectangle covers a place that none before it covers. -/
theorem exists_new_of_coverFrom {front back : List Rectangle}
    (cut : coverFrom values covered qs = front ++ q :: back) :
    ∃ p ∈ q.places, p ∉ covered ∧ ∀ q' ∈ front, p ∉ q'.places := by
  induction qs generalizing covered front with
  | nil => simp [coverFrom] at cut
  | cons a qs ih =>
    rcases coverFrom_cons values covered a qs with ⟨-, new, step⟩ | ⟨-, step⟩ <;> rw [step] at cut
    · cases front with
      | nil =>
        obtain ⟨rfl, -⟩ := List.cons.inj cut
        obtain ⟨p, mem, uncovered⟩ : ∃ p ∈ a.places, p ∉ covered := by
          simpa [List.subset_def] using new
        exact ⟨p, mem, uncovered, by simp⟩
      | cons b front =>
        obtain ⟨rfl, later⟩ := List.cons.inj cut
        obtain ⟨p, mem, uncovered, apart⟩ := ih later
        rw [List.mem_append, not_or] at uncovered
        exact ⟨p, mem, uncovered.1, List.forall_mem_cons.mpr ⟨uncovered.2, apart⟩⟩
    · exact ih cut

/-- In the end every rectangle of true cells is covered. -/
theorem mem_covered_of_trueOn (listed : q ∈ qs) (allTrue : q.TrueOn values)
    (inside : p ∈ q.places) :
    p ∈ covered ∨ ∃ q' ∈ coverFrom values covered qs, p ∈ q'.places := by
  induction qs generalizing covered with
  | nil => cases listed
  | cons a qs ih =>
    rcases coverFrom_cons values covered a qs with ⟨-, -, step⟩ | ⟨passed, step⟩ <;> rw [step]
    · rcases List.mem_cons.mp listed with rfl | later
      · exact Or.inr ⟨q, List.mem_cons_self, inside⟩
      · have found : p ∈ covered ++ a.places ∨
            ∃ q' ∈ coverFrom values (covered ++ a.places) qs, p ∈ q'.places := ih later
        rcases found with before | ⟨q', taken, mem⟩
        · rcases List.mem_append.mp before with before | here
          · exact Or.inl before
          · exact Or.inr ⟨a, List.mem_cons_self, here⟩
        · exact Or.inr ⟨q', List.mem_cons_of_mem a taken, mem⟩
    · rcases List.mem_cons.mp listed with rfl | later
      · exact Or.inl (passed allTrue inside)
      · exact ih later

/-- What is covered is not covered again. -/
theorem notMem_coverFrom_of_subset (known : q.places ⊆ covered) :
    q ∉ coverFrom values covered qs := by
  induction qs generalizing covered with
  | nil => exact List.not_mem_nil
  | cons a qs ih =>
    intro taken
    rcases coverFrom_cons values covered a qs with ⟨-, new, step⟩ | ⟨-, step⟩ <;>
      rw [step] at taken
    · rcases List.mem_cons.mp taken with rfl | later
      · exact new known
      · exact ih (List.Subset.trans known (List.subset_append_left _ _)) later
    · exact ih known taken

/-- When rectangles come by falling area, a larger rectangle of true cells is covered before those
inside it are tried. -/
theorem notMem_coverFrom_of_larger
    (falling : qs.Pairwise fun a b => b.area ≤ a.area) (listed : q' ∈ qs)
    (allTrue : q'.TrueOn values) (inside : q.places ⊆ q'.places) (larger : q.area < q'.area) :
    q ∉ coverFrom values covered qs := by
  induction qs generalizing covered with
  | nil => cases listed
  | cons a qs ih =>
    rw [List.pairwise_cons] at falling
    intro taken
    rcases List.mem_cons.mp listed with rfl | later
    · -- From here on all places of the larger rectangle are covered.
      rcases coverFrom_cons values covered q' qs with ⟨-, -, step⟩ | ⟨passed, step⟩ <;>
        rw [step] at taken
      · rcases List.mem_cons.mp taken with rfl | taken
        · exact Nat.lt_irrefl _ larger
        · refine notMem_coverFrom_of_subset ?_ taken
          exact List.Subset.trans inside (List.subset_append_right _ _)
      · exact notMem_coverFrom_of_subset (List.Subset.trans inside (passed allTrue)) taken
    · have before : q'.area ≤ a.area := falling.1 q' later
      rcases coverFrom_cons values covered a qs with ⟨-, -, step⟩ | ⟨-, step⟩ <;>
        rw [step] at taken
      · rcases List.mem_cons.mp taken with rfl | taken
        · omega
        · exact ih falling.2 later taken
      · exact ih falling.2 later taken

/-! ### The rectangles of a grid -/

/-- The intervals on a circle of `n` that can be the side of a rectangle. -/
def arcs (n : Nat) : List (List Nat) :=
  ([1, 2, 4].filter fun length => decide (length ≤ n)).flatMap fun length =>
    (starts n length).map fun start => arc n start length

theorem mem_arcs {n : Nat} {a : List Nat} : a ∈ arcs n ↔
    ∃ length ∈ [1, 2, 4], length ≤ n ∧ ∃ start ∈ starts n length, arc n start length = a := by
  simp only [arcs, List.mem_flatMap, List.mem_filter, List.mem_map, decide_eq_true_eq, and_assoc]

theorem mem_sides {side : Nat × Nat} :
    side ∈ sides ↔ side.1 ∈ [1, 2, 4] ∧ side.2 ∈ [1, 2, 4] := by
  obtain ⟨a, b⟩ := side
  simp only [sides, List.mem_cons, Prod.mk.injEq, List.not_mem_nil, or_false]
  omega

theorem length_arc (n start length : Nat) : (arc n start length).length = length := by
  simp [arc]

theorem area_of_mem_rectanglesOf {side : Nat × Nat} (mem : q ∈ rectanglesOf h w side) :
    q.area = side.1 * side.2 := by
  unfold rectanglesOf at mem
  split at mem
  · obtain ⟨r, -, mem⟩ := List.mem_flatMap.mp mem
    obtain ⟨c, -, rfl⟩ := List.mem_map.mp mem
    rw [Rectangle.area, length_arc, length_arc]
  · cases mem

/-- Larger rectangles are tried first. -/
theorem pairwise_rectangles (h w : Nat) :
    (rectangles h w).Pairwise fun a b => b.area ≤ a.area := by
  rw [rectangles, List.pairwise_flatMap]
  constructor
  · intro side _
    refine List.pairwise_of_forall_mem_list fun a ha b hb => ?_
    exact Nat.le_of_eq ((area_of_mem_rectanglesOf hb).trans (area_of_mem_rectanglesOf ha).symm)
  · have falling : sides.Pairwise fun s t => t.1 * t.2 ≤ s.1 * s.2 := by decide
    refine falling.imp fun {s t} le a ha b hb => ?_
    rw [area_of_mem_rectanglesOf ha, area_of_mem_rectanglesOf hb]
    exact le

/-- The rectangles of a grid are those with any two sides. -/
theorem mem_rectangles : q ∈ rectangles h w ↔ q.rows ∈ arcs h ∧ q.columns ∈ arcs w := by
  rw [rectangles, List.mem_flatMap, mem_arcs, mem_arcs]
  constructor
  · rintro ⟨side, listed, mem⟩
    unfold rectanglesOf at mem
    split at mem
    · next fits =>
      obtain ⟨r, startR, mem⟩ := List.mem_flatMap.mp mem
      obtain ⟨c, startC, rfl⟩ := List.mem_map.mp mem
      rw [mem_sides] at listed
      exact ⟨⟨side.1, listed.1, fits.1, r, startR, rfl⟩, ⟨side.2, listed.2, fits.2, c, startC, rfl⟩⟩
    · cases mem
  · obtain ⟨rows, columns⟩ := q
    rintro ⟨⟨a, listedA, fitsA, r, startR, rfl⟩, ⟨b, listedB, fitsB, c, startC, rfl⟩⟩
    refine ⟨(a, b), mem_sides.mpr ⟨listedA, listedB⟩, ?_⟩
    rw [rectanglesOf, if_pos ⟨fitsA, fitsB⟩]
    exact List.mem_flatMap.mpr ⟨r, startR, List.mem_map.mpr ⟨c, startC, rfl⟩⟩

theorem singleton_mem_arcs {n i : Nat} (less : i < n) : [i] ∈ arcs n := by
  rw [mem_arcs]
  refine ⟨1, List.mem_cons_self, by omega, i, ?_, ?_⟩
  · unfold starts
    split
    · rw [List.mem_singleton]
      omega
    · exact List.mem_range.mpr less
  · simp [arc, Nat.mod_eq_of_lt less]

/-! ### The cover of a grid -/

theorem mem_of_mem_cover (taken : q ∈ cover values) :
    q ∈ rectangles values.height values.width ∧ q.TrueOn values :=
  mem_of_mem_coverFrom taken

/-- Every true cell of a grid is in some rectangle that is taken. -/
theorem exists_mem_cover (row : p.1 < values.height) (column : p.2 < values.width)
    (isTrue : values.cell p.1 p.2 = true) : ∃ q ∈ cover values, p ∈ q.places := by
  obtain ⟨r, c⟩ := p
  let single : Rectangle := ⟨[r], [c]⟩
  have listed : single ∈ rectangles values.height values.width :=
    mem_rectangles.mpr ⟨singleton_mem_arcs row, singleton_mem_arcs column⟩
  have allTrue : single.TrueOn values := by
    intro p mem
    obtain rfl : p = (r, c) := by simpa [single, Rectangle.places] using mem
    exact isTrue
  have inside : (r, c) ∈ single.places := by simp [single, Rectangle.places]
  rcases mem_covered_of_trueOn listed allTrue inside with start | found
  · exact absurd start List.not_mem_nil
  · exact found

/-- A rectangle that is taken does not lie inside a larger one of true cells. -/
theorem notMem_cover_of_larger (listed : q' ∈ rectangles values.height values.width)
    (allTrue : q'.TrueOn values) (inside : q.places ⊆ q'.places) (larger : q.area < q'.area) :
    q ∉ cover values :=
  notMem_coverFrom_of_larger (pairwise_rectangles _ _) listed allTrue inside larger

end Sentential.Karnaugh
