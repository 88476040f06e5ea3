import Mathlib.Data.List.Nodup
import Mathlib.Data.List.Perm.Subperm
import Mathlib.Data.List.ProdSigma
import Mathlib.Data.Nat.ModEq
import Sentential.Proofs.Karnaugh.Cover

/-!
# Groups on a grid of any shape

A grid with joined edges is a torus. The search leaves out some rectangles on it: an interval that
is a whole circle is tried from its first place only. Nothing is lost, because such an interval has
the same places from any start; so every rectangle on the torus is tried as a set of places. The
groups are therefore as good on a grid of any shape as on the grids of maps: they cover the true
cells and no others, each of them adds a cell, and none of them can be extended.

## Main definitions

* `Karnaugh.Rectangle.FitsOn` — a rectangle on the torus, from any corner
* `Karnaugh.IsIrredundantCover` — some groups cover the true cells of a grid, none in vain

## Main results

* `Karnaugh.Rectangle.FitsOn.exists_mem_rectangles` — every rectangle on the torus is tried
* `Karnaugh.subset_of_mem_cover` — a taken rectangle lies strictly inside no other of true cells
* `Karnaugh.isIrredundantCover_groups` — the groups of any grid are such a cover
-/

namespace Sentential.Karnaugh

variable {values : Grid Bool} {minterms : Grid Int} {vars : List String} {q q' : Rectangle}
variable {p : Place} {n start length k height width : Nat}

/-! ### Intervals on a circle -/

theorem lt_of_mem_arc_of_lt (inside : start < n) (mem : k ∈ arc n start length) : k < n := by
  obtain ⟨i, -, rfl⟩ := List.mem_map.mp mem
  exact Nat.mod_lt _ (Nat.zero_lt_of_lt inside)

/-- An interval that is not longer than the circle meets no place twice. -/
theorem nodup_arc (fits : length ≤ n) : (arc n start length).Nodup := by
  refine List.Nodup.map_on (fun i memI j memJ same => ?_) List.nodup_range
  have lessI := Nat.lt_of_lt_of_le (List.mem_range.mp memI) fits
  have lessJ := Nat.lt_of_lt_of_le (List.mem_range.mp memJ) fits
  have congruent : i ≡ j [MOD n] := Nat.ModEq.add_left_cancel' start same
  exact congruent.eq_of_lt_of_lt lessI lessJ

/-- The whole circle is an interval from any of its places. -/
theorem mem_arc_self (inside : start < n) : k ∈ arc n start n ↔ k < n := by
  refine ⟨lt_of_mem_arc_of_lt inside, fun less => List.mem_map.mpr ⟨(k + (n - start)) % n, ?_, ?_⟩⟩
  · exact List.mem_range.mpr (Nat.mod_lt _ (Nat.zero_lt_of_lt inside))
  · have around : start + (k + (n - start)) = k + n := by omega
    rw [Nat.add_mod_mod, around, Nat.add_mod_right, Nat.mod_eq_of_lt less]

/-- The search meets the places of every interval, from some start. -/
theorem exists_start (length : Nat) (inside : start < n) :
    ∃ start' ∈ starts n length, ∀ k, k ∈ arc n start' length ↔ k ∈ arc n start length := by
  by_cases whole : length = n
  · subst whole
    have origin : 0 < length := Nat.zero_lt_of_lt inside
    exact ⟨0, by simp [starts], fun k => (mem_arc_self origin).trans (mem_arc_self inside).symm⟩
  · exact ⟨start, by simpa [starts, whole] using inside, fun k => Iff.rfl⟩

theorem lt_of_mem_starts (positive : 0 < length) (mem : start ∈ starts n length) : start < n := by
  unfold starts at mem
  split at mem
  · rw [List.mem_singleton] at mem
    omega
  · exact List.mem_range.mp mem

/-! ### Rectangles on a torus -/

/-- The rectangle has sides one, two or four that fit on the grid. It may start at any corner and
run over the edges. -/
def Rectangle.FitsOn (q : Rectangle) (height width : Nat) : Prop :=
  ∃ corner side : Nat × Nat, corner.1 < height ∧ corner.2 < width ∧
    side.1 ∈ [1, 2, 4] ∧ side.2 ∈ [1, 2, 4] ∧ side.1 ≤ height ∧ side.2 ≤ width ∧
    q = ⟨arc height corner.1 side.1, arc width corner.2 side.2⟩

theorem Rectangle.places_eq (q : Rectangle) : q.places = q.rows ×ˢ q.columns := rfl

theorem Rectangle.length_places (q : Rectangle) : q.places.length = q.area := by
  rw [places_eq, List.length_product, area]

theorem Rectangle.FitsOn.nodup_places (fits : q.FitsOn height width) : q.places.Nodup := by
  obtain ⟨corner, side, -, -, -, -, fitsR, fitsC, rfl⟩ := fits
  exact List.Nodup.product (nodup_arc fitsR) (nodup_arc fitsC)

theorem Rectangle.FitsOn.lt_of_mem_places (fits : q.FitsOn height width) (mem : p ∈ q.places) :
    p.1 < height ∧ p.2 < width := by
  obtain ⟨corner, side, row, column, -, -, -, -, rfl⟩ := fits
  rw [mem_places] at mem
  exact ⟨lt_of_mem_arc_of_lt row mem.1, lt_of_mem_arc_of_lt column mem.2⟩

/-- Only rectangles on the torus are tried. -/
theorem fitsOn_of_mem_rectangles (listed : q ∈ rectangles height width) :
    q.FitsOn height width := by
  have positive : ∀ length ∈ [1, 2, 4], 0 < length := by decide
  obtain ⟨rows, columns⟩ := q
  obtain ⟨⟨a, sideR, fitsR, r, startR, rfl⟩, ⟨b, sideC, fitsC, c, startC, rfl⟩⟩ := by
    simpa only [mem_arcs] using mem_rectangles.mp listed
  exact ⟨(r, c), (a, b), lt_of_mem_starts (positive a sideR) startR,
    lt_of_mem_starts (positive b sideC) startC, sideR, sideC, fitsR, fitsC, rfl⟩

/-- Every rectangle on the torus is tried, as a set of places. -/
theorem Rectangle.FitsOn.exists_mem_rectangles (fits : q.FitsOn height width) :
    ∃ q' ∈ rectangles height width, q'.area = q.area ∧ ∀ p, p ∈ q'.places ↔ p ∈ q.places := by
  obtain ⟨corner, side, row, column, sideR, sideC, fitsR, fitsC, rfl⟩ := fits
  obtain ⟨r, startR, sameRows⟩ := exists_start side.1 row
  obtain ⟨c, startC, sameColumns⟩ := exists_start side.2 column
  refine ⟨⟨arc height r side.1, arc width c side.2⟩, ?_, ?_, fun p => ?_⟩
  · exact mem_rectangles.mpr ⟨mem_arcs.mpr ⟨side.1, sideR, fitsR, r, startR, rfl⟩,
      mem_arcs.mpr ⟨side.2, sideC, fitsC, c, startC, rfl⟩⟩
  · simp only [area, length_arc]
  · rw [mem_places, mem_places, sameRows, sameColumns]

/-- A rectangle around another one that is no larger has no further places. -/
theorem Rectangle.FitsOn.subset_of_area_le (fits : q.FitsOn height width)
    (inside : q.places ⊆ q'.places) (le : q'.area ≤ q.area) : q'.places ⊆ q.places := by
  rw [← length_places, ← length_places] at le
  have within : q.places.Subperm q'.places := fits.nodup_places.subperm inside
  exact (within.perm_of_length_le le).symm.subset

/-! ### The cover -/

theorem fitsOn_of_mem_cover (taken : q ∈ cover values) :
    q.FitsOn values.height values.width :=
  fitsOn_of_mem_rectangles (mem_of_mem_cover taken).1

/-- A rectangle of true cells around a taken one has no further places. -/
theorem subset_of_mem_cover (taken : q ∈ cover values)
    (fits : q'.FitsOn values.height values.width) (allTrue : q'.TrueOn values)
    (inside : q.places ⊆ q'.places) : q'.places ⊆ q.places := by
  -- The larger rectangle may not be tried itself, but one with its places is.
  obtain ⟨tried, listed, sameArea, samePlaces⟩ := fits.exists_mem_rectangles
  have triedTrue : tried.TrueOn values := fun p mem => allTrue p ((samePlaces p).mp mem)
  have triedAround : q.places ⊆ tried.places := fun p mem => (samePlaces p).mpr (inside mem)
  refine (fitsOn_of_mem_cover taken).subset_of_area_le inside ?_
  by_contra larger
  exact notMem_cover_of_larger listed triedTrue triedAround (by omega) taken

/-! ### The groups -/

/-- Some groups cover the true cells of a grid, and none of them in vain. -/
structure IsIrredundantCover (values : Grid Bool) (minterms : Grid Int) (vars : List String)
    (gs : List Group) : Prop where
  /-- A group has the cells of a rectangle of true cells, each once, the minterms of these cells in
  the same order, and their product term. -/
  rectangular : ∀ g ∈ gs, ∃ q : Rectangle, q.FitsOn values.height values.width ∧
    q.TrueOn values ∧ g.places = q.places ∧ g.places.Nodup ∧
    g.minterms = g.places.map (fun p => minterms.cell p.1 p.2) ∧ g.term = term g.minterms vars
  /-- The cells of the groups are the true cells of the grid. -/
  exact : ∀ p : Place, (∃ g ∈ gs, p ∈ g.places) ↔
    p.1 < values.height ∧ p.2 < values.width ∧ values.cell p.1 p.2 = true
  /-- A group has a cell that no group before it has. -/
  fresh : ∀ front g back, gs = front ++ g :: back → ∃ p ∈ g.places, ∀ g' ∈ front, p ∉ g'.places
  /-- No group is larger than one before it. -/
  falling : gs.Pairwise fun g g' => g'.places.length ≤ g.places.length
  /-- A rectangle of true cells around a group has no further cells. -/
  maximal : ∀ g ∈ gs, ∀ q : Rectangle, q.FitsOn values.height values.width → q.TrueOn values →
    g.places ⊆ q.places → q.places ⊆ g.places

theorem mem_groups_iff {g : Group} : g ∈ groups values minterms vars ↔
    ∃ q ∈ cover values, groupOf minterms vars q = g :=
  List.mem_map

theorem places_groupOf : (groupOf minterms vars q).places = q.places := rfl

/-- **The groups are an irredundant cover by maximal rectangles**, on a grid of any shape and for
any minterms on it. -/
theorem isIrredundantCover_groups (values : Grid Bool) (minterms : Grid Int)
    (vars : List String) :
    IsIrredundantCover values minterms vars (groups values minterms vars) where
  rectangular g mem := by
    obtain ⟨q, taken, rfl⟩ := mem_groups_iff.mp mem
    have fits := fitsOn_of_mem_cover taken
    exact ⟨q, fits, (mem_of_mem_cover taken).2, rfl, fits.nodup_places, rfl, rfl⟩
  exact p := by
    constructor
    · rintro ⟨g, mem, inside⟩
      obtain ⟨q, taken, rfl⟩ := mem_groups_iff.mp mem
      have within := (fitsOn_of_mem_cover taken).lt_of_mem_places inside
      exact ⟨within.1, within.2, (mem_of_mem_cover taken).2 p inside⟩
    · rintro ⟨row, column, isTrue⟩
      obtain ⟨q, taken, inside⟩ := exists_mem_cover row column isTrue
      exact ⟨groupOf minterms vars q, mem_groups_iff.mpr ⟨q, taken, rfl⟩, inside⟩
  fresh front g back cut := by
    obtain ⟨before, rest, taken, rfl, tail⟩ := List.map_eq_append_iff.mp cut
    obtain ⟨q, behind, rfl, rfl, rfl⟩ := List.map_eq_cons_iff.mp tail
    obtain ⟨p, mem, -, apart⟩ := exists_new_of_coverFrom taken
    exact ⟨p, mem, by simpa [places_groupOf] using apart⟩
  falling := by
    have order := (pairwise_rectangles values.height values.width).sublist
      (sublist_coverFrom values [] _)
    refine List.pairwise_map.mpr (order.imp fun {q q'} le => ?_)
    rwa [places_groupOf, places_groupOf, Rectangle.length_places, Rectangle.length_places]
  maximal g mem q fits allTrue around := by
    obtain ⟨taken, listed, rfl⟩ := mem_groups_iff.mp mem
    exact subset_of_mem_cover listed fits allTrue around

/-- Three rows and five columns: the square in the corners runs over both edges, and the cell in the
middle has a group of its own. -/
theorem isIrredundantCover_groups_acrossEdges :
    let values := Grid.ofRows false [[true, false, false, false, true],
      [false, false, true, false, false], [true, false, false, false, true]]
    let minterms := Grid.ofRows 0 [[0, 1, 2, 3, 4], [5, 6, 7, 8, 9], [10, 11, 12, 13, 14]]
    let gs := groups values minterms ["A", "B", "C", "D"]
    gs.map Group.places = [[(2, 4), (2, 0), (0, 4), (0, 0)], [(1, 2)]] ∧
      gs.map Group.minterms = [[14, 10, 4, 0], [7]] ∧
      IsIrredundantCover values minterms ["A", "B", "C", "D"] gs :=
  ⟨by decide +kernel, by decide +kernel, isIrredundantCover_groups _ _ _⟩

end Sentential.Karnaugh
