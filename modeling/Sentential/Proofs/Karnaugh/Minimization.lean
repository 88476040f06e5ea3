import Sentential.Proofs.Karnaugh.Implicant
import Sentential.Proofs.Table.Decision

/-!
# Karnaugh maps minimize

For two to four distinct variables and any rows there is a map. Its minimized text is read as a
formula with the values of the rows, and the terms of its groups are prime implicants: none of
their literals can be left out. The rows of a truth table give a formula equivalent to that of the
table.

## Main definitions

* `Karnaugh.HasTruthAt` — the value of a text under the assignment of a row
* `Karnaugh.Map.Minimizes` — a map gives a sum of prime implicants of a function

## Main results

* `Karnaugh.minimizes_mapOf` — every map is a sum of prime implicants of the values of its rows
* `Karnaugh.map_minimizes` — the same for the construction, also for the rows of a truth table
-/

namespace Sentential

namespace Karnaugh

open Token (spellsName)
open TruthTable (assignment valuation Numbered)

variable {dr dc m : Nat} {b : Bool} {q : Rectangle} {f : Nat → Bool} {vars : List String}
variable {lss : List (List (String × Bool))} {ls : List (String × Bool)} {rows : List Row}
variable {key s : String} {rowLabels columnLabels : List String}

/-- The text is read as a formula with that value under the assignment of a row number. -/
def HasTruthAt (vars : List String) (m : Nat) (s : String) (b : Bool) : Prop :=
  ∃ u, Expr.ofText s = .ok u ∧ u.shape.eval? (assignment m vars).get? = .ok b

/-- The groups of a map are prime implicants of a function on the minterms, and their sum is the
function. -/
structure Map.Minimizes (map : Map) (vars : List String) (f : Nat → Bool) : Prop where
  /-- The minimized text has the values of the function. -/
  minimized : ∀ m < 2 ^ vars.length, HasTruthAt vars m map.minimized (f m)
  /-- The minterms of a group are row numbers. -/
  minterms : ∀ g ∈ map.groups, ∀ m ∈ g.minterms, 0 ≤ m ∧ m < 2 ^ vars.length
  /-- The term of a group is true at exactly the minterms of the group. -/
  term : ∀ g ∈ map.groups, ∀ m < 2 ^ vars.length,
    HasTruthAt vars m g.term (decide ((m : Int) ∈ g.minterms))
  /-- The term of a group is true only where the function is. -/
  implicant : ∀ g ∈ map.groups, ∀ m < 2 ^ vars.length, HasTruthAt vars m g.term true → f m = true
  /-- The term of a group is a product of literals, and without any one of them it is true at some
  row number where the function is not. -/
  prime : ∀ g ∈ map.groups, g.term = product (literals g.minterms vars) ∧
    ∀ l ∈ literals g.minterms vars, ∃ m < 2 ^ vars.length, f m = false ∧
      HasTruthAt vars m (product ((literals g.minterms vars).erase l)) true

/-! ### Reading sums and products -/

theorem HasTruthAt.unique {b' : Bool} (value : HasTruthAt vars m s b)
    (value' : HasTruthAt vars m s b') : b = b' := by
  obtain ⟨u, read, value⟩ := value
  obtain ⟨u', read', value'⟩ := value'
  obtain rfl : u = u' := Except.ok.inj (read.symm.trans read')
  exact Except.ok.inj (value.symm.trans value')

theorem hasTruthAt_sum (named : ∀ x ∈ vars, spellsName x = true)
    (among : ∀ ls ∈ lss, ∀ l ∈ ls, l.1 ∈ vars) (m : Nat) :
    HasTruthAt vars m (sum lss) (lss.any (holds (valuation m vars))) := by
  obtain ⟨u, read, shape⟩ := exists_ofText_sum fun ls mem l literal =>
    named l.1 (among ls mem l literal)
  refine ⟨u, read, ?_⟩
  rw [shape, ← eval_sumExpr]
  refine TruthTable.eval?_assignment (fun x occurs => ?_) m
  obtain ⟨ls, mem, l, literal, rfl⟩ := exists_mem_of_mem_vars_sumExpr occurs
  exact among ls mem l literal

theorem hasTruthAt_product (named : ∀ x ∈ vars, spellsName x = true)
    (among : ∀ l ∈ ls, l.1 ∈ vars) (m : Nat) :
    HasTruthAt vars m (product ls) (holds (valuation m vars) ls) := by
  have alone := hasTruthAt_sum named (List.forall_mem_singleton.mpr among) m
  rwa [sum_singleton, List.any_cons, List.any_nil, Bool.or_false] at alone

theorem mem_of_mem_literals {ms : List Int} {l : String × Bool} (mem : l ∈ literals ms vars) :
    l.1 ∈ vars :=
  (sublist_literals ms vars).subset (List.mem_map_of_mem mem)

theorem sumOf_eq {gs : List Group} {of : Group → List (String × Bool)}
    (terms : ∀ g ∈ gs, g.term = product (of g)) : sumOf gs = sum (gs.map of) := by
  cases gs with
  | nil => rfl
  | cons g gs =>
    have texts : (g :: gs).map Group.term = ((g :: gs).map of).map product := by
      rw [List.map_map]
      exact List.map_congr_left terms
    exact congrArg (String.intercalate (" " ++ Connective.or.symbol ++ " ")) texts

/-! ### Maps -/

theorem groupOf_eq {minterms : Grid Int}
    (cells : ∀ p ∈ q.places, minterms.cell p.1 p.2 = mintermAt dc p) (vars : List String) :
    groupOf minterms vars q =
      ⟨q.places, (q.codes dc).map Nat.cast, product (literalsOf dc vars q)⟩ := by
  have same : (q.places.map fun p => minterms.cell p.1 p.2) = (q.codes dc).map Nat.cast := by
    rw [Rectangle.codes, List.map_map]
    exact List.map_congr_left cells
  rw [groupOf, same]
  rfl

theorem mem_minterms_iff : (m : Int) ∈ (q.codes dc).map Nat.cast ↔ m ∈ q.codes dc := by
  rw [List.mem_map]
  constructor
  · rintro ⟨n, mem, same⟩
    rwa [← Int.natCast_inj.mp same]
  · intro mem
    exact ⟨m, mem, rfl⟩

section Map

variable (smallR : dr = 1 ∨ dr = 2) (smallC : dc = 1 ∨ dc = 2)
variable (labelsR : grayCode? dr = some rowLabels) (labelsC : grayCode? dc = some columnLabels)
include smallR smallC labelsR labelsC

theorem shows_mapOf (vars : List String) (rows : List Row) (key : String) :
    (mapOf vars rows key rowLabels columnLabels).values.Shows dr dc
      fun m => valueAt rows key m := by
  obtain ⟨height, width, cell⟩ := mintermGrid_eq smallR smallC labelsR labelsC
  refine ⟨height, width, fun r row c column => ?_⟩
  exact congrArg (valueAt rows key) (cell r row c column)

theorem groups_mapOf (vars : List String) (rows : List Row) (key : String) :
    (mapOf vars rows key rowLabels columnLabels).groups =
      (cover (mapOf vars rows key rowLabels columnLabels).values).map fun q =>
        ⟨q.places, (q.codes dc).map Nat.cast, product (literalsOf dc vars q)⟩ := by
  have shows := shows_mapOf smallR smallC labelsR labelsC vars rows key
  obtain ⟨-, -, cell⟩ := mintermGrid_eq smallR smallC labelsR labelsC
  refine List.map_congr_left fun q taken => groupOf_eq (fun p mem => ?_) vars
  obtain ⟨sideR, sideC⟩ := mem_rectangles.mp (mem_rectangles_of_cover shows taken)
  rw [Rectangle.mem_places] at mem
  exact cell _ (lt_of_mem_arc smallR sideR mem.1) _ (lt_of_mem_arc smallC sideC mem.2)

/-- A map over distinct names gives a sum of prime implicants of the values of its rows. -/
theorem minimizes_mapOf (count : dr + dc = vars.length) (nodup : vars.Nodup)
    (named : ∀ x ∈ vars, spellsName x = true) (rows : List Row) (key : String) :
    (mapOf vars rows key rowLabels columnLabels).Minimizes vars fun m => valueAt rows key m := by
  set map := mapOf vars rows key rowLabels columnLabels with cut
  have shows : map.values.Shows dr dc fun m => valueAt rows key m :=
    shows_mapOf smallR smallC labelsR labelsC vars rows key
  have groups := groups_mapOf smallR smallC labelsR labelsC vars rows key
  rw [← cut] at groups
  -- A fact about groups is one about taken rectangles.
  have forall_groups : ∀ {P : Group → Prop}, (∀ q ∈ cover map.values,
      P ⟨q.places, (q.codes dc).map Nat.cast, product (literalsOf dc vars q)⟩) →
        ∀ g ∈ map.groups, P g := by
    intro P each
    rw [groups]
    exact List.forall_mem_map.mpr each
  have term : ∀ q ∈ cover map.values, ∀ m < 2 ^ vars.length,
      HasTruthAt vars m (product (literalsOf dc vars q)) (decide (m ∈ q.codes dc)) := by
    intro q taken m less
    have listed := mem_rectangles_of_cover shows taken
    rw [← holds_literalsOf smallR smallC nodup count listed less]
    exact hasTruthAt_product named (fun l mem => mem_of_mem_literals mem) m
  refine
    { minimized := ?_, minterms := forall_groups ?_, term := forall_groups ?_,
      implicant := forall_groups ?_, prime := forall_groups ?_ }
  · intro m less
    have terms : ∀ g ∈ map.groups, g.term = product (literals g.minterms vars) :=
      forall_groups fun _ _ => rfl
    have texts : map.minimized = sum ((cover map.values).map (literalsOf dc vars)) := by
      refine (sumOf_eq terms).trans ?_
      rw [groups, List.map_map]
      rfl
    rw [texts, ← any_holds_cover smallR smallC nodup count shows less]
    refine hasTruthAt_sum named (List.forall_mem_map.mpr fun q _ l mem => ?_) m
    exact mem_of_mem_literals mem
  · intro q taken
    rw [List.forall_mem_map]
    intro m mem
    have less := lt_of_mem_codes smallR smallC (mem_rectangles_of_cover shows taken) mem
    rw [count] at less
    exact ⟨Int.natCast_nonneg m, by exact_mod_cast less⟩
  · intro q taken m less
    simp only [mem_minterms_iff]
    exact term q taken m less
  · intro q taken m less value
    have mem := of_decide_eq_true ((term q taken m less).unique value)
    exact eq_true_of_mem_cover smallR smallC shows taken mem
  · intro q taken
    refine ⟨rfl, fun l mem => ?_⟩
    obtain ⟨m, less, isFalse, remain⟩ :=
      exists_false_of_erase smallR smallC nodup count shows taken mem
    refine ⟨m, less, isFalse, ?_⟩
    have among : ∀ l' ∈ (literalsOf dc vars q).erase l, l'.1 ∈ vars :=
      fun l' mem => mem_of_mem_literals (List.mem_of_mem_erase mem)
    have product := hasTruthAt_product named among m
    rwa [remain] at product

end Map

/-- Two to four variables are one or two for the rows and one or two for the columns. -/
theorem map?_eq_some (two : 2 ≤ vars.length) (four : vars.length ≤ 4) (rows : List Row)
    (key : String) : ∃ dr dc rowLabels columnLabels, (dr = 1 ∨ dr = 2) ∧ (dc = 1 ∨ dc = 2) ∧
      dr + dc = vars.length ∧ grayCode? dr = some rowLabels ∧ grayCode? dc = some columnLabels ∧
      map? vars rows key = some (mapOf vars rows key rowLabels columnLabels) := by
  -- Two or three names give one to the rows, four give two.
  have lengths : ∃ dr dc, (dr = 1 ∨ dr = 2) ∧ (dc = 1 ∨ dc = 2) ∧ dr + dc = vars.length ∧
      (split vars).1.length = dr ∧ (split vars).2.length = dc := by
    by_cases few : vars.length = 2 ∨ vars.length = 3
    · refine ⟨1, vars.length - 1, Or.inl rfl, by omega, by omega, ?_, ?_⟩ <;>
        rw [split, if_pos few]
      · rw [List.length_take]
        omega
      · rw [List.length_drop]
    · refine ⟨2, vars.length - 2, Or.inr rfl, by omega, by omega, ?_, ?_⟩ <;>
        rw [split, if_neg few]
      · rw [List.length_take]
        omega
      · rw [List.length_drop]
  obtain ⟨dr, dc, smallR, smallC, count, lengthR, lengthC⟩ := lengths
  obtain ⟨rowLabels, labelsR⟩ := exists_grayCode?_eq smallR
  obtain ⟨columnLabels, labelsC⟩ := exists_grayCode?_eq smallC
  refine ⟨dr, dc, rowLabels, columnLabels, smallR, smallC, count, labelsR, labelsC, ?_⟩
  rw [map?, if_pos ⟨two, four⟩, lengthR, lengthC, labelsR, labelsC]

/-! ### Rows of truth tables -/

theorem valueAt_eq {i : Int} (present : ∃ row ∈ rows, row.index = i)
    (same : ∀ row ∈ rows, row.index = i → row.truth key = b) : valueAt rows key i = b := by
  obtain ⟨row, mem, number⟩ := present
  obtain ⟨last, memLast, found, numberLast⟩ : ∃ last ∈ rows,
      (rows.reverse.find? fun r => r.index == i) = some last ∧ (last.index == i) = true :=
    exists_find?_reverse_eq mem (beq_iff_eq.mpr number)
  rw [beq_iff_eq] at numberLast
  rw [valueAt, found, Option.map_some, Option.getD_some, same last memLast numberLast]

/-- With one row for every number, its value is that of the row. -/
theorem valueAt_index {count : Nat} {row : Row} (numbered : Numbered rows count)
    (mem : row ∈ rows) (key : String) : valueAt rows key row.index = row.truth key := by
  obtain ⟨m, less, number⟩ := numbered.exists_index_eq mem
  refine valueAt_eq ⟨row, mem, rfl⟩ fun row' mem' same => ?_
  rw [(numbered.existsUnique less).unique ⟨mem', same.trans number⟩ ⟨mem, number⟩]

/-- The rows of a table have the values of its formula. -/
theorem valueAt_of_decides {t : TruthTable} {formula : Formula} {order : RowOrder}
    (covered : ∀ x ∈ formula.vars, x ∈ vars) (decides : t.Decides formula vars order)
    (less : m < 2 ^ vars.length) :
    valueAt t.rows t.outputKey m = formula.eval (valuation m vars) := by
  obtain ⟨row, ⟨mem, number⟩, -⟩ := decides.numbered.existsUnique less
  obtain ⟨b, cell, value⟩ := decides.value row mem
  rw [TruthTable.eval?_assignment covered, Except.ok.injEq] at value
  rw [← number, valueAt_index decides.numbered mem, Row.truth, cell, Option.getD_some, value]

/-- A formula with a value under an assignment has no other variables. -/
theorem covered_of_eval?_assignment {formula : Formula}
    (value : formula.eval? (assignment m vars).get? = .ok b) : ∀ x ∈ formula.vars, x ∈ vars := by
  intro x occurs
  have bound := Formula.isSome_of_eval? value x occurs
  rwa [← OrderedMap.mem_keys_iff, TruthTable.mem_keys_assignment] at bound

/-- A text with the values of a formula under all assignments of names is read as an equivalent
formula. -/
theorem exists_equivalent {formula : Formula} (covered : ∀ x ∈ formula.vars, x ∈ vars)
    (values : ∀ m < 2 ^ vars.length, HasTruthAt vars m s (formula.eval (valuation m vars))) :
    ∃ u, Expr.ofText s = .ok u ∧ ∀ v b, u.shape.HasValue v b ↔ formula.HasValue v b := by
  obtain ⟨u, read, start⟩ := values 0 (Nat.two_pow_pos _)
  have coveredU := covered_of_eval?_assignment start
  refine ⟨u, read, fun v b => ?_⟩
  -- The valuation is that of its row number, on all variables of both formulas.
  have same : ∀ g : Formula, (∀ x ∈ g.vars, x ∈ vars) →
      g.eval v = g.eval (valuation (TruthTable.numberOf v vars) vars) := fun g coveredG =>
    g.eval_congr fun x occurs => (TruthTable.valuation_numberOf v (coveredG x occurs)).symm
  obtain ⟨u', read', value⟩ := values _ (TruthTable.numberOf_lt v vars)
  obtain rfl : u = u' := Except.ok.inj (read.symm.trans read')
  rw [TruthTable.eval?_assignment coveredU, Except.ok.injEq] at value
  rw [Formula.hasValue_iff, Formula.hasValue_iff, same _ coveredU, same _ covered, value]

/-- **Karnaugh maps minimize.** Over two to four distinct names and any rows there is a map, which
gives a sum of prime implicants of the values in the rows. Over the rows of a truth table the
minimized text is read as a formula equivalent to that of the table. -/
theorem map_minimizes (vars : List String) (two : 2 ≤ vars.length) (four : vars.length ≤ 4)
    (nodup : vars.Nodup) (named : ∀ x ∈ vars, spellsName x = true) :
    (∀ (rows : List Row) (key : String), ∃ map, map? vars rows key = some map ∧
      map.Minimizes vars fun m => valueAt rows key m) ∧
    ∀ (e : Expr) (order : RowOrder) (subformulas : Bool) (mode : NegationMode),
      (∀ x ∈ e.shape.vars, x ∈ vars) →
        ∃ t map u, TruthTable.build e vars order subformulas mode = .ok t ∧
          map? vars t.rows t.outputKey = some map ∧ Expr.ofText map.minimized = .ok u ∧
          ∀ v b, u.shape.HasValue v b ↔ e.shape.HasValue v b := by
  have general : ∀ (rows : List Row) (key : String), ∃ map, map? vars rows key = some map ∧
      map.Minimizes vars fun m => valueAt rows key m := by
    intro rows key
    obtain ⟨dr, dc, rowLabels, columnLabels, smallR, smallC, count, labelsR, labelsC, found⟩ :=
      map?_eq_some two four rows key
    exact ⟨_, found, minimizes_mapOf smallR smallC labelsR labelsC count nodup named rows key⟩
  refine ⟨general, fun e order subformulas mode covered => ?_⟩
  have decides : (TruthTable.tableOf e vars order subformulas mode).Decides e.shape vars order :=
    TruthTable.decides_tableOf covered
  obtain ⟨map, found, minimizes⟩ := general
    (TruthTable.tableOf e vars order subformulas mode).rows
    (TruthTable.tableOf e vars order subformulas mode).outputKey
  obtain ⟨u, read, equivalent⟩ := exists_equivalent covered fun m less => by
    rw [← valueAt_of_decides covered decides less]
    exact minimizes.minimized m less
  exact ⟨_, map, u, TruthTable.build_eq_ok covered, found, read, equivalent⟩

/-- Rows with a number twice and another one missing; of the two the last one counts. -/
def patchyRows : List Row :=
  [⟨1, .ofList [("F", false)]⟩, ⟨2, .ofList [("F", true)]⟩, ⟨1, .ofList [("F", true)]⟩,
    ⟨3, .empty⟩]

theorem map_minimizes_patchyRows :
    (∃ map, map? ["A", "B2"] patchyRows "F" = some map ∧
      map.Minimizes ["A", "B2"] fun m => valueAt patchyRows "F" m) ∧
    valueAt patchyRows "F" 1 = true ∧
    ∃ t map u, TruthTable.build Expr.doublyBracketed ["X20", "A1", "B"] .descending true .preserve =
      .ok t ∧ map? ["X20", "A1", "B"] t.rows t.outputKey = some map ∧
      Expr.ofText map.minimized = .ok u ∧
      ∀ v b, u.shape.HasValue v b ↔ Expr.doublyBracketed.shape.HasValue v b :=
  ⟨(map_minimizes ["A", "B2"] (by decide) (by decide) (by decide) (by decide)).1 _ _, by decide,
    (map_minimizes ["X20", "A1", "B"] (by decide) (by decide) (by decide) (by decide)).2 _ _ _ _
      (by decide)⟩

end Karnaugh

end Sentential
