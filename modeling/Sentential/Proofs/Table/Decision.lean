import Mathlib.Data.List.Nodup
import Sentential.Proofs.Table.Rows
import Sentential.Proofs.Token.Scan

/-!
# Truth tables decide formulas

A table has a row for every assignment of the declared names, so its last column says under which
valuations the formula is true, and its classification says whether that is always, never or
sometimes. This holds for names that are declared twice or not used, whatever the names look like,
and whichever columns are shown.

## Main definitions

* `TruthTable.Decides` — what a table says about a formula
* `TruthTable.Numbered` — rows with the numbers of all assignments

## Main results

* `TruthTable.decides_tableOf` — a table over declared variables decides its formula
* `TruthTable.table_decides` — the same of the construction, which fails only for missing names
-/

namespace Sentential

namespace Classification

variable {values : List Bool}

theorem all_id_iff : values.all id = true ↔ false ∉ values := by
  rw [List.all_eq_true]
  constructor
  · intro all mem
    cases all false mem
  · intro absent b mem
    cases b
    · contradiction
    · rfl

theorem all_not_iff : values.all not = true ↔ true ∉ values := by
  rw [List.all_eq_true]
  constructor
  · intro all mem
    cases all true mem
  · intro absent b mem
    cases b
    · rfl
    · contradiction

theorem ofValues?_of_ne_nil (nonempty : values ≠ []) :
    ofValues? values = some (if values.all id then tautology
      else if values.all not then contradiction else contingency) := by
  cases values with
  | nil => contradiction
  | cons first rest =>
    rw [ofValues?, apply_ite some, apply_ite some]
    exact List.cons_ne_nil first rest

/-- A classification of values says which values occur. -/
theorem ofValues?_eq_some_iff (nonempty : values ≠ []) (c : Classification) :
    ofValues? values = some c ↔
      match c with
      | tautology => false ∉ values
      | contradiction => true ∉ values
      | contingency => true ∈ values ∧ false ∈ values := by
  rw [ofValues?_of_ne_nil nonempty]
  by_cases never : false ∈ values <;> by_cases always : true ∈ values
  · rw [if_neg (by rw [all_id_iff]; simpa), if_neg (by rw [all_not_iff]; simpa)]
    cases c <;> simp [*]
  · rw [if_neg (by rw [all_id_iff]; simpa), if_pos (by rw [all_not_iff]; simpa)]
    cases c <;> simp [*]
  · rw [if_pos (by rw [all_id_iff]; simpa)]
    cases c <;> simp [*]
  · -- There is a value, and it is one of the two.
    obtain ⟨b, mem⟩ := List.exists_mem_of_ne_nil values nonempty
    cases b <;> contradiction

end Classification

namespace TruthTable

variable {f : Formula} {e : Expr} {vars : List String} {order : RowOrder} {subformulas : Bool}
variable {mode : NegationMode} {c : Classification}

/-- The table shows the values of a formula under all assignments of the declared names. -/
structure Decides (t : TruthTable) (f : Formula) (vars : List String) (order : RowOrder) :
    Prop where
  outputKey_eq : t.outputKey = f.text
  /-- There are as many rows as numbers with a binary digit for each name. -/
  length_rows : t.rows.length = 2 ^ vars.length
  /-- Each of these numbers has one row, and the rows are in order. -/
  indices_rows : t.rows.map Row.index =
    match order with
    | .ascending => (List.range (2 ^ vars.length)).map Nat.cast
    | .descending => ((List.range (2 ^ vars.length)).map Nat.cast).reverse
  /-- The output of a row is the value of the formula under the assignment of the row. -/
  value : ∀ row ∈ t.rows, ∃ b, row.values.get? t.outputKey = some b ∧
    f.eval? (assignment row.index vars).get? = .ok b
  tautology_iff : t.classification = .tautology ↔ ∀ v, f.HasValue v true
  contradiction_iff : t.classification = .contradiction ↔ ∀ v, f.HasValue v false
  contingency_iff : t.classification = .contingency ↔
    (∃ v, f.HasValue v true) ∧ ∃ v, f.HasValue v false
  /-- Every assignment of distinct names is that of exactly one row. -/
  unique : vars.Nodup → ∀ v : String → Bool,
    ∃! row, row ∈ t.rows ∧ assignment row.index vars = .ofList (vars.map fun x => (x, v x))

/-! ### Row numbers -/

theorem mem_indices {n count : Nat} : n ∈ indices order count ↔ n < 2 ^ count := by
  cases order <;> simp [indices, Nat.pow_eq]

theorem length_indices (order : RowOrder) (count : Nat) :
    (indices order count).length = 2 ^ count := by
  cases order <;> simp [indices, Nat.pow_eq]

theorem assignment_numberOf (v : String → Bool) (vars : List String) :
    assignment (numberOf v vars) vars = .ofList (vars.map fun x => (x, v x)) := by
  rw [assignment, bindings_numberOf]

/-- A value that a formula can have is its value in some row. -/
theorem exists_index_iff (covered : ∀ x ∈ f.vars, x ∈ vars) (order : RowOrder) (b : Bool) :
    (∃ n ∈ indices order vars.length, f.eval (valuation n vars) = b) ↔ ∃ v, f.HasValue v b := by
  constructor
  · rintro ⟨n, -, value⟩
    exact ⟨_, Formula.hasValue_iff.mpr value⟩
  · rintro ⟨v, value⟩
    have less := numberOf_lt v vars
    have same := f.eval_congr fun x occurs => valuation_numberOf v (covered x occurs)
    refine ⟨numberOf v vars, mem_indices.mpr less, ?_⟩
    rw [same]
    exact Formula.hasValue_iff.mp value

/-- The rows have the numbers of all assignments of so many names, each once. -/
def Numbered (rows : List Row) (count : Nat) : Prop :=
  (rows.map Row.index).Perm ((List.range (2 ^ count)).map Nat.cast)

section Numbered

variable {rows : List Row} {row : Row} {count m : Nat}

theorem Numbered.existsUnique (numbered : Numbered rows count) (less : m < 2 ^ count) :
    ∃! row, row ∈ rows ∧ row.index = (m : Nat) := by
  have distinct : (rows.map Row.index).Nodup :=
    numbered.nodup_iff.mpr (List.nodup_range.map fun _ _ => Int.ofNat.inj)
  obtain ⟨row, mem, number⟩ := List.mem_map.mp
    (numbered.mem_iff.mpr (List.mem_map_of_mem (List.mem_range.mpr less)))
  refine ⟨row, ⟨mem, number⟩, fun row' other => ?_⟩
  exact List.inj_on_of_nodup_map distinct other.1 mem (other.2.trans number.symm)

theorem Numbered.exists_index_eq (numbered : Numbered rows count) (mem : row ∈ rows) :
    ∃ m < 2 ^ count, row.index = (m : Nat) := by
  obtain ⟨m, less, same⟩ := List.mem_map.mp (numbered.mem_iff.mp (List.mem_map_of_mem mem))
  exact ⟨m, List.mem_range.mp less, same.symm⟩

/-- The rows of a table are numbered, in either order. -/
theorem Decides.numbered {t : TruthTable} (decides : t.Decides f vars order) :
    Numbered t.rows vars.length := by
  rw [Numbered, decides.indices_rows]
  cases order with
  | ascending => exact .refl _
  | descending => exact List.reverse_perm _

end Numbered

/-! ### The output column -/

theorem truth_rowAt (covered : ∀ x ∈ e.shape.vars, x ∈ vars) (subformulas : Bool) (n : Nat) :
    (rowAt e vars subformulas n).truth e.shape.text = e.shape.eval (valuation n vars) := by
  rw [Row.truth, get?_rowAt_text covered, Option.getD_some]

theorem classify?_rows (covered : ∀ x ∈ e.shape.vars, x ∈ vars) :
    classify? ((indices order vars.length).map (rowAt e vars subformulas)) e.shape.text =
      Classification.ofValues?
        ((indices order vars.length).map fun n : Nat => e.shape.eval (valuation n vars)) := by
  have outputs : ∀ n ∈ indices order vars.length,
      (rowAt e vars subformulas n).truth e.shape.text = e.shape.eval (valuation n vars) :=
    fun n _ => truth_rowAt covered subformulas n
  rw [classify?, List.map_map]
  exact congrArg _ (List.map_congr_left outputs)

/-- The classification of a table is that of the values of its formula. -/
theorem classification_tableOf_iff (covered : ∀ x ∈ e.shape.vars, x ∈ vars) :
    (tableOf e vars order subformulas mode).classification = c ↔
      match c with
      | .tautology => ¬ ∃ v, e.shape.HasValue v false
      | .contradiction => ¬ ∃ v, e.shape.HasValue v true
      | .contingency => (∃ v, e.shape.HasValue v true) ∧ ∃ v, e.shape.HasValue v false := by
  set values := (indices order vars.length).map
    fun n : Nat => e.shape.eval (valuation n vars) with cut
  have nonempty : values ≠ [] := by
    intro none
    have length := congrArg List.length none
    rw [cut, List.length_map, length_indices, List.length_nil] at length
    have positive := Nat.two_pow_pos vars.length
    omega
  -- The values in the rows are all values that the formula can have.
  have mem : ∀ b, b ∈ values ↔ ∃ v, e.shape.HasValue v b := by
    intro b
    rw [cut, List.mem_map]
    exact exists_index_iff covered order b
  have classified : Classification.ofValues? values =
      some (tableOf e vars order subformulas mode).classification := by
    rw [tableOf, classify?_rows covered, ← cut, Classification.ofValues?_of_ne_nil nonempty,
      Option.getD_some]
  rw [← mem, ← mem, ← Classification.ofValues?_eq_some_iff nonempty, classified, Option.some.injEq]

/-- A table over declared variables decides its formula. -/
theorem decides_tableOf (covered : ∀ x ∈ e.shape.vars, x ∈ vars) :
    (tableOf e vars order subformulas mode).Decides e.shape vars order := by
  have rows : (tableOf e vars order subformulas mode).rows =
      (indices order vars.length).map (rowAt e vars subformulas) := rfl
  refine
    { outputKey_eq := rfl, length_rows := ?_, indices_rows := ?_, value := ?_, tautology_iff := ?_,
      contradiction_iff := ?_, contingency_iff := classification_tableOf_iff covered,
      unique := ?_ }
  · rw [rows, List.length_map, length_indices]
  · have numbered : Row.index ∘ rowAt e vars subformulas = Nat.cast := rfl
    rw [rows, List.map_map, numbered]
    cases order with
    | ascending => rfl
    | descending => exact List.map_reverse
  · intro row mem
    rw [rows, List.mem_map] at mem
    obtain ⟨n, -, rfl⟩ := mem
    exact ⟨_, get?_rowAt_text covered subformulas n, eval?_assignment covered n⟩
  · rw [classification_tableOf_iff covered]
    simp only [not_exists, ← Formula.hasValue_not_iff, Bool.not_false]
  · rw [classification_tableOf_iff covered]
    simp only [not_exists, ← Formula.hasValue_not_iff, Bool.not_true]
  · intro nodup v
    have assigned := assignment_numberOf v vars
    refine ⟨rowAt e vars subformulas (numberOf v vars), ⟨?_, assigned⟩, ?_⟩
    · rw [rows]
      exact List.mem_map_of_mem (mem_indices.mpr (numberOf_lt v vars))
    · intro row found
      obtain ⟨mem, same⟩ := found
      rw [rows, List.mem_map] at mem
      obtain ⟨n, listed, rfl⟩ := mem
      -- Another row with this assignment would have another number for it.
      have number : n = numberOf v vars := by
        refine index_unique nodup (mem_indices.mp listed) (numberOf_lt v vars) fun x _ => ?_
        rw [assigned, ← same]
        rfl
      rw [number]

/-- **Truth tables decide formulas.** Over any list of names that declares all variables the
construction yields a table that decides the formula; otherwise it reports exactly the variables
that are missing, in order. -/
theorem table_decides (e : Expr) (vars : List String) (order : RowOrder) (subformulas : Bool)
    (mode : NegationMode) :
    ((∀ x ∈ e.shape.vars, x ∈ vars) →
      ∃ t, build e vars order subformulas mode = .ok t ∧ t.Decides e.shape vars order) ∧
    ((∃ x ∈ e.shape.vars, x ∉ vars) →
      ∃ names, build e vars order subformulas mode = .error (.undeclared names) ∧
        names.Pairwise (· < ·) ∧ ∀ x, x ∈ names ↔ x ∈ e.shape.vars ∧ x ∉ vars) := by
  constructor
  · intro covered
    exact ⟨_, build_eq_ok covered, decides_tableOf covered⟩
  · rintro ⟨x, occurs, missing⟩
    have listed := mem_undeclared.mpr ⟨occurs, missing⟩
    exact ⟨_, build_eq_error (List.ne_nil_of_mem listed), Token.pairwise_sortedNames _,
      fun _ => mem_undeclared⟩

/-- A formula with a variable called like another subformula. -/
def disguised : Expr := .binary {} .or (.var {} "¬A") (.not {} (.var {} "A"))

theorem table_decides_disguised :
    (∃ t, build disguised ["A", "¬A", "A"] .descending true .preserve = .ok t ∧
      t.Decides disguised.shape ["A", "¬A", "A"] .descending) ∧
    ∃ names, build disguised ["A", "B"] .ascending false .preserve = .error (.undeclared names) ∧
      names.Pairwise (· < ·) ∧ ∀ x, x ∈ names ↔ x ∈ disguised.shape.vars ∧ x ∉ ["A", "B"] :=
  ⟨(table_decides _ _ _ _ _).1 (by decide), (table_decides _ _ _ _ _).2 (by decide)⟩

end TruthTable

end Sentential
