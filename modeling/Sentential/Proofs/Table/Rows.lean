import Sentential.Proofs.Formula.Memo
import Sentential.Proofs.Table.Assignment

/-!
# Tables in closed form

A row is computed through a memo of all subformulas and two kinds of look-up: the subformula that a
key stands for, and its value in the memo. Neither look-up can fail for an expression whose
variables are declared, and each finds the value under the valuation that the row number means. So
a table is a list of rows that can be written down without the memo.

## Main definitions

* `TruthTable.shown` — the subformula that a key stands for
* `TruthTable.shownColumns` — the derived columns with their subformulas
* `TruthTable.rowAt` — the row with a number, by evaluation

## Main results

* `TruthTable.exists_memo` — no look-up fails under the assignment of a row number
* `TruthTable.build_eq_ok_iff` — a table over declared variables in closed form
* `TruthTable.get?_rowAt_text` — the value of the whole formula in a row
-/

namespace Sentential

/-- A map over a list succeeds if it succeeds on all members. -/
theorem mapM_eq_ok {α β ε : Type} {f : α → Except ε β} {g : α → β} {l : List α}
    (succeeds : ∀ a ∈ l, f a = .ok (g a)) : l.mapM f = .ok (l.map g) := by
  induction l with
  | nil => rfl
  | cons a rest ih =>
    rw [List.forall_mem_cons] at succeeds
    rw [List.mapM_cons, succeeds.1, ih succeeds.2]
    rfl

/-- A search from the end finds a member if there is one to be found. -/
theorem exists_find?_reverse_eq {α : Type} {p : α → Bool} {l : List α} {a : α} (mem : a ∈ l)
    (fits : p a = true) : ∃ last ∈ l, l.reverse.find? p = some last ∧ p last = true := by
  have found : (l.reverse.find? p).isSome :=
    List.find?_isSome.mpr ⟨a, List.mem_reverse.mpr mem, fits⟩
  obtain ⟨last, found⟩ := Option.isSome_iff_exists.mp found
  have listed := List.mem_of_find?_eq_some found
  exact ⟨last, List.mem_reverse.mp listed, found, List.find?_some found⟩

namespace TruthTable

variable {f g : Formula} {e : Expr} {vars : List String} {key : String} {subformulas : Bool}
variable {mode : NegationMode} {order : RowOrder} {index : Nat}

/-! ### Keys and the subformulas that they stand for -/

/-- The subformula that a key stands for: the last one with that text. -/
def shown (f : Formula) (key : String) : Formula :=
  (f.subformulas.reverse.find? fun g => g.text == key).getD f

/-- The look-up of the text of a subformula finds a subformula with that text. -/
theorem bearer_eq_ok (mem : g ∈ f.subformulas) : bearer f g.text = .ok (shown f g.text) ∧
    shown f g.text ∈ f.subformulas ∧ (shown f g.text).text = g.text := by
  obtain ⟨h, memH, found, text⟩ : ∃ h ∈ f.subformulas,
      (f.subformulas.reverse.find? fun h => h.text == g.text) = some h ∧
        (h.text == g.text) = true :=
    exists_find?_reverse_eq mem (beq_self_eq_true g.text)
  have same : shown f g.text = h := by rw [shown, found, Option.getD_some]
  rw [same]
  exact ⟨by rw [bearer, found], memH, by simpa using text⟩

/-- The text of the whole formula stands for the whole, which is the last of its subformulas. -/
theorem shown_text (f : Formula) : shown f f.text = f := by
  have last : ∃ rest, f.subformulas.reverse = f :: rest := by
    cases f <;> simp [Formula.subformulas]
  obtain ⟨rest, reversed⟩ := last
  rw [shown, reversed, List.find?_cons_of_pos (by simp), Option.getD_some]

theorem shape_mem_of_mem_derivedNodes {n : Expr} (mem : n ∈ derivedNodes e subformulas) :
    n.shape ∈ e.shape.subformulas := by
  have whole := e.shape.mem_subformulas_self
  unfold derivedNodes at mem
  split at mem
  · split at mem
    · rw [List.mem_singleton.mp mem]
      exact whole
    · have keyed := (mem_firstOccurrences_key Expr.shape _ _).mp (List.mem_map_of_mem mem)
      rw [← Expr.map_shape_postorder]
      exact (List.filter_sublist.map Expr.shape).subset keyed
  · split at mem
    · cases mem
    · rw [List.mem_singleton.mp mem]
      exact whole

/-- There is a derived column for the whole formula, unless it is a variable. -/
theorem exists_mem_derivedNodes (compound : e.shape.isVar = false) (subformulas : Bool) :
    ∃ n ∈ derivedNodes e subformulas, n.shape = e.shape := by
  cases subformulas with
  | false => exact ⟨e, by simp [derivedNodes, compound], rfl⟩
  | true =>
    cases e with
    | var m name => cases compound
    | const m value => exact ⟨_, List.mem_singleton_self _, rfl⟩
    | not | binary =>
      refine List.mem_map.mp ((mem_firstOccurrences_key Expr.shape _ _).mpr ?_)
      refine List.mem_map.mpr ⟨_, List.mem_filter.mpr ⟨?_, ?_⟩, rfl⟩
      · simp [Expr.postorder]
      · rfl

theorem filter_columnsOf (e : Expr) (vars : List String) (subformulas : Bool)
    (mode : NegationMode) :
    ((columnsOf e vars subformulas mode).filter fun c => !c.isInput).map Column.key =
      (derivedNodes e subformulas).map fun n => n.shape.text := by
  simp only [columnsOf, List.filter_append, List.map_append, List.filter_map, List.map_map]
  have inputs : ∀ p : String → Bool, (∀ x, p x = false) → vars.filter p = [] := by
    intro p never
    simp [List.filter_eq_nil_iff, never]
  have nodes : ∀ p : Expr → Bool, (∀ n, p n = true) →
      (derivedNodes e subformulas).filter p = derivedNodes e subformulas := by
    intro p always
    simp [List.filter_eq_self, always]
  rw [inputs _ fun x => by rfl, nodes _ fun n => by rfl]
  rfl

/-- The keys of the derived columns, with the subformulas that they stand for. -/
def shownColumns (e : Expr) (subformulas : Bool) : List (String × Formula) :=
  (derivedNodes e subformulas).map fun n => (n.shape.text, shown e.shape n.shape.text)

theorem mem_subformulas_of_mem_shownColumns {column : String × Formula}
    (mem : column ∈ shownColumns e subformulas) : column.2 ∈ e.shape.subformulas := by
  obtain ⟨n, derived, rfl⟩ := List.mem_map.mp mem
  exact (bearer_eq_ok (shape_mem_of_mem_derivedNodes derived)).2.1

/-- Every derived column stands for a subformula. -/
theorem derived_eq_ok (e : Expr) (vars : List String) (subformulas : Bool) (mode : NegationMode) :
    derived e.shape (columnsOf e vars subformulas mode) = .ok (shownColumns e subformulas) := by
  have keys := filter_columnsOf e vars subformulas mode
  have found : ∀ c ∈ (columnsOf e vars subformulas mode).filter fun c => !c.isInput,
      (do return (c.key, ← bearer e.shape c.key)) =
        (.ok (c.key, shown e.shape c.key) : Except Diagnostic _) := by
    intro c mem
    have keyed : c.key ∈ (derivedNodes e subformulas).map fun n => n.shape.text := by
      rw [← keys]
      exact List.mem_map_of_mem mem
    obtain ⟨n, derived, same⟩ := List.mem_map.mp keyed
    rw [← same, (bearer_eq_ok (shape_mem_of_mem_derivedNodes derived)).1]
    rfl
  have pairs : ∀ {α : Type} {l : List α} {key : α → String} (keys' : List String),
      l.map key = keys' → l.map (fun c => (key c, shown e.shape (key c))) =
        keys'.map fun k => (k, shown e.shape k) := by
    rintro α l key _ rfl
    simp [Function.comp_def]
  -- Only the keys of the columns count, and these are the texts of the derived nodes.
  rw [derived, mapM_eq_ok found, pairs _ keys, List.map_map]
  rfl

/-! ### Rows and tables -/

/-- The row with a number: the inputs are its assignment, and every other cell is the value of a
subformula under that assignment. -/
def rowAt (e : Expr) (vars : List String) (subformulas : Bool) (index : Nat) : Row :=
  let v := valuation index vars
  let cells := (derivedNodes e subformulas).map fun n =>
    (n.shape.text, (shown e.shape n.shape.text).eval v)
  ⟨index, ((assignment index vars).insertMany cells).insertIfAbsent e.shape.text (e.shape.eval v)⟩

/-- Under the assignment of a row number all subformulas have values, and these are found. -/
theorem exists_memo (covered : ∀ x ∈ e.shape.vars, x ∈ vars) (subformulas : Bool) (index : Nat) :
    ∃ memo : Formula.Memo, e.shape.evalInto (assignment index vars).get? .empty = .ok memo ∧
      derivedCells (shownColumns e subformulas) memo =
        .ok ((derivedNodes e subformulas).map fun n =>
          (n.shape.text, (shown e.shape n.shape.text).eval (valuation index vars))) ∧
      memo.value e.shape = .ok (e.shape.eval (valuation index vars)) := by
  have bound : ∀ x ∈ e.shape.vars, (assignment index vars).get? x =
      some (valuation index vars x) := fun x mem => get?_assignment (covered x mem)
  obtain ⟨memo, evaluated, records⟩ :=
    Formula.exists_evalInto_eq_ok (Formula.Memo.sound_empty _) (Formula.eval?_eq_ok _ bound)
  have value : ∀ g ∈ e.shape.subformulas,
      memo.value g = .ok (g.eval (valuation index vars)) := by
    intro g mem
    have boundG : ∀ x ∈ g.vars, (assignment index vars).get? x = some (valuation index vars x) :=
      fun x occurs => bound x (Formula.vars_subset_of_mem_subformulas mem occurs)
    exact records.sound.value_eq_ok (Formula.eval?_eq_ok g boundG)
      (records.closed Formula.Memo.closed_empty e.shape records.recorded g mem)
  refine ⟨memo, evaluated, ?_, value _ e.shape.mem_subformulas_self⟩
  rw [derivedCells, mapM_eq_ok (g := fun d => (d.1, d.2.eval (valuation index vars))),
    shownColumns, List.map_map]
  · rfl
  · intro column mem
    rw [value _ (mem_subformulas_of_mem_shownColumns mem)]
    rfl

theorem rowOf_eq_ok (covered : ∀ x ∈ e.shape.vars, x ∈ vars) (subformulas : Bool) (index : Nat) :
    rowOf e.shape vars (shownColumns e subformulas) index =
      .ok (rowAt e vars subformulas index) := by
  obtain ⟨memo, evaluated, cells, value⟩ := exists_memo covered subformulas index
  simp only [rowOf, evaluated, cells, value, bind, Except.bind]
  rfl

/-- The value of the whole formula is kept under its text, whatever other columns are called. -/
theorem get?_rowAt_text (covered : ∀ x ∈ e.shape.vars, x ∈ vars) (subformulas : Bool)
    (index : Nat) : (rowAt e vars subformulas index).values.get? e.shape.text =
      some (e.shape.eval (valuation index vars)) := by
  set cells := (derivedNodes e subformulas).map fun n =>
    (n.shape.text, (shown e.shape n.shape.text).eval (valuation index vars)) with cut
  have written : ((assignment index vars).insertMany cells).get? e.shape.text =
      some (e.shape.eval (valuation index vars)) := by
    refine OrderedMap.get?_insertMany_of_unique _ _ (fun y cell => ?_) ?_
    · -- A derived column with the text of the whole shows the whole.
      obtain ⟨n, -, same⟩ := List.mem_map.mp cell
      rw [Prod.mk.injEq] at same
      rw [← same.2, same.1, shown_text]
    · cases alone : e.shape.isVar with
      | false =>
        obtain ⟨n, derived, same⟩ := exists_mem_derivedNodes alone subformulas
        exact Or.inl (List.mem_map.mpr ⟨n, derived, by rw [same, shown_text]⟩)
      | true =>
        -- A lone variable is its own input column.
        cases lone : e.shape with
        | const | not | binary => rw [lone] at alone; cases alone
        | var name =>
          rw [lone] at covered
          exact Or.inr (get?_assignment (covered name (List.mem_singleton_self name)))
  have present : e.shape.text ∈ ((assignment index vars).insertMany cells).keys := by
    rw [OrderedMap.mem_keys_iff, written]
    rfl
  simp only [rowAt, ← cut, OrderedMap.insertIfAbsent, OrderedMap.contains, present, decide_true,
    if_true]
  exact written

/-- The table over declared variables. -/
def tableOf (e : Expr) (vars : List String) (order : RowOrder) (subformulas : Bool)
    (mode : NegationMode) : TruthTable :=
  let rows := (indices order vars.length).map (rowAt e vars subformulas)
  { columns := columnsOf e vars subformulas mode
    rows
    classification := (classify? rows e.shape.text).getD .contingency
    outputKey := e.shape.text }

theorem mem_undeclared {x : String} : x ∈ undeclared f vars ↔ x ∈ f.vars ∧ x ∉ vars := by
  rw [undeclared, Token.mem_sortedNames]
  simp

theorem undeclared_eq_nil_iff : undeclared f vars = [] ↔ ∀ x ∈ f.vars, x ∈ vars := by
  simp [List.eq_nil_iff_forall_not_mem, mem_undeclared]

theorem requireDeclared_eq_ok_iff : requireDeclared f vars = .ok () ↔ ∀ x ∈ f.vars, x ∈ vars := by
  rw [← undeclared_eq_nil_iff, requireDeclared]
  split
  · next none => simp [none]
  · next some => simpa using some

theorem requireDeclared_eq_error (missing : undeclared f vars ≠ []) :
    requireDeclared f vars = .error (.undeclared (undeclared f vars)) := by
  rw [requireDeclared]
  split
  · contradiction
  · rfl

/-- A table can be built over any list that declares all variables. -/
theorem build_eq_ok (covered : ∀ x ∈ e.shape.vars, x ∈ vars) :
    build e vars order subformulas mode = .ok (tableOf e vars order subformulas mode) := by
  have rows : (indices order vars.length).mapM
      (rowOf e.shape vars (shownColumns e subformulas)) =
        .ok ((indices order vars.length).map (rowAt e vars subformulas)) :=
    mapM_eq_ok fun index _ => rowOf_eq_ok covered subformulas index
  simp only [build, requireDeclared_eq_ok_iff.mpr covered, derived_eq_ok, rows, bind, Except.bind]
  rfl

/-- Without that, the names that are missing are reported. -/
theorem build_eq_error (missing : undeclared e.shape vars ≠ []) :
    build e vars order subformulas mode = .error (.undeclared (undeclared e.shape vars)) := by
  rw [build, requireDeclared_eq_error missing]
  rfl

theorem build_eq_ok_iff {t : TruthTable} : build e vars order subformulas mode = .ok t ↔
    (∀ x ∈ e.shape.vars, x ∈ vars) ∧ t = tableOf e vars order subformulas mode := by
  by_cases none : undeclared e.shape vars = []
  · have covered := undeclared_eq_nil_iff.mp none
    rw [build_eq_ok covered, and_iff_right covered, Except.ok.injEq, eq_comm]
  · rw [build_eq_error none, ← undeclared_eq_nil_iff]
    simp [none]

end TruthTable

end Sentential
