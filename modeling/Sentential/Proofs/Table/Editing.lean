import Mathlib.Data.List.DropRight
import Sentential.Proofs.Table.Columns
import Sentential.TruthTable.Edit

/-!
# Editing sessions

A session on a row writes cells and computes the derived cells anew, in any order. What the row
holds afterwards can be told without running the session: an input holds what was last written to
it, and a derived cell holds the value of its subformula unless it was overridden since the derived
cells were last computed. So nothing that happened before the last computation can be seen any more,
apart from the inputs, and the row is then the row of the table with these inputs.

## Main definitions

* `Row.Edit` — a step of a session
* `Row.Edit.lastWritten?`, `Row.Edit.pending` — what a list of steps says about a cell
* `Row.edited` — the row after a session
* `Row.computed` — the row with its derived cells computed, by evaluation
* `Row.Reflects` — what a row holds after a session

## Main results

* `Row.refresh_eq_ok` — the computation of derived cells in closed form
* `Row.Kept.step`, `Row.Kept.run` — a step and a session keep the invariant
* `Row.edits_consistent` — sessions on a row of a table succeed and leave what their steps say
-/

namespace Sentential

open Token (spellsName)
open TruthTable (columnsOf keysOf derivedFormulas rowAt numberOf assignment valuation tableOf)

/-- The number of a valuation is that of the values of the names. -/
theorem TruthTable.numberOf_congr {v w : String → Bool} {vars : List String}
    (same : ∀ x ∈ vars, v x = w x) : numberOf v vars = numberOf w vars := by
  induction vars with
  | nil => rfl
  | cons x rest ih =>
    rw [List.forall_mem_cons] at same
    rw [numberOf, numberOf, same.1, ih same.2]

/-- Steps that keep a relation to the list of the steps so far run to the end of the list. -/
theorem exists_foldlM_eq_ok {α β ε : Type} {step : β → α → Except ε β} {start : β}
    {related : β → List α → Prop} {l : List α} (first : related start [])
    (each : ∀ b before, related b before → ∀ x ∈ l,
      ∃ b', step b x = .ok b' ∧ related b' (before ++ [x])) :
    ∃ b, l.foldlM step start = .ok b ∧ related b l := by
  induction l using List.reverseRecOn with
  | nil => exact ⟨start, rfl, first⟩
  | append_singleton l x ih =>
    obtain ⟨b, ended, reached⟩ := ih fun b before found y mem =>
      each b before found y (List.mem_append_left _ mem)
    obtain ⟨b', stepped, reached'⟩ := each b l reached x List.mem_concat_self
    refine ⟨b', ?_, reached'⟩
    rw [List.foldlM_append, ended]
    simp only [List.foldlM_cons, List.foldlM_nil, stepped, bind, Except.bind]
    rfl

namespace Row

/-- A step of an editing session. -/
inductive Edit where
  /-- A cell is written. -/
  | write (column : Column) (value : Bool)
  /-- The derived cells are computed anew. -/
  | refresh

namespace Edit

variable {columns : List Column} {f : Formula} {key : String} {edit : Edit} {edits : List Edit}

/-- The row after a step. -/
def apply (columns : List Column) (f : Formula) (row : Row) : Edit → Except Diagnostic Row
  | write column value => row.writeCell column value columns f
  | refresh => row.refresh columns f

/-- A step writes only in one of the columns. -/
def On (columns : List Column) : Edit → Prop
  | write column _ => column ∈ columns
  | refresh => True

instance (columns : List Column) : (edit : Edit) → Decidable (edit.On columns)
  | write column _ => inferInstanceAs (Decidable (column ∈ columns))
  | refresh => inferInstanceAs (Decidable True)

/-- Whether the derived cells are computed in the step. -/
def settles : Edit → Bool
  | write column _ => column.isInput
  | refresh => true

/-- The value that is written under a key in the step. -/
def written? (key : String) : Edit → Option Bool
  | write column value => if column.key = key then some value else none
  | refresh => none

/-- The value that is written last under a key. -/
def lastWritten? (key : String) (edits : List Edit) : Option Bool :=
  edits.reverse.findSome? (written? key)

/-- The steps since the derived cells were last computed. -/
def pending (edits : List Edit) : List Edit := edits.rtakeWhile fun edit => !edit.settles

theorem lastWritten?_nil (key : String) : lastWritten? key [] = none := rfl

theorem lastWritten?_concat (key : String) (edits : List Edit) (edit : Edit) :
    lastWritten? key (edits ++ [edit]) = (edit.written? key).or (lastWritten? key edits) := by
  rw [lastWritten?, List.reverse_append, List.reverse_singleton, List.singleton_append,
    List.findSome?_cons]
  cases edit.written? key <;> rfl

theorem pending_concat_of_settles (settles : edit.settles = true) :
    pending (edits ++ [edit]) = [] :=
  List.rtakeWhile_concat_neg _ _ _ (by simp [settles])

theorem pending_concat_of_not_settles (overrides : edit.settles = false) :
    pending (edits ++ [edit]) = pending edits ++ [edit] :=
  List.rtakeWhile_concat_pos _ _ _ (by simp [overrides])

theorem pending_eq_nil (settle : ∀ edit ∈ edits, edit.settles = true) : pending edits = [] := by
  rcases List.eq_nil_or_concat' edits with rfl | ⟨before, last, rfl⟩
  · rfl
  · exact pending_concat_of_settles (settle last List.mem_concat_self)

end Edit

open Edit (lastWritten? pending)

/-- The row after a session. -/
def edited (row : Row) (columns : List Column) (f : Formula) (edits : List Edit) :
    Except Diagnostic Row :=
  edits.foldlM (Edit.apply columns f) row

variable {e : Expr} {g : Formula} {vars : List String} {x key : String} {subformulas : Bool}
variable {order : RowOrder} {mode : NegationMode} {row row' : Row} {edits : List Edit}

/-! ### Reading cells -/

theorem get?_eq_some_truth (present : key ∈ row.values.keys) :
    row.values.get? key = some (row.truth key) := by
  obtain ⟨b, found⟩ := Option.isSome_iff_exists.mp ((OrderedMap.mem_keys_iff _ _).mp present)
  rw [truth, found, Option.getD_some]

/-- The row with one cell overwritten and nothing computed. -/
def put (row : Row) (key : String) (b : Bool) : Row :=
  { row with values := row.values.insert key b }

theorem truth_put (row : Row) (k : String) (b : Bool) (key : String) :
    (row.put k b).truth key = if k = key then b else row.truth key := by
  rw [truth, put, OrderedMap.get?_insert]
  split <;> rfl

theorem keys_put (b : Bool) (present : key ∈ row.values.keys) :
    (row.put key b).values.keys = row.values.keys :=
  OrderedMap.keys_insert_of_mem row.values b present

theorem writeCell_eq (row : Row) (c : Column) (b : Bool) (columns : List Column) (f : Formula) :
    row.writeCell c b columns f =
      if c.isInput then (row.put c.key b).refresh columns f else .ok (row.put c.key b) := rfl

/-- The inputs of a row are the assignment of a row number. -/
theorem inputs_eq (row : Row) (e : Expr) (vars : List String) (subformulas : Bool)
    (mode : NegationMode) :
    row.inputs (columnsOf e vars subformulas mode) = assignment (numberOf row.truth vars) vars := by
  rw [inputs, TruthTable.filter_isInput_columnsOf, List.map_map, TruthTable.assignment_numberOf]
  rfl

/-! ### Computing the derived cells -/

/-- The row with its derived cells computed, by evaluation. -/
def computed (row : Row) (e : Expr) (vars : List String) (subformulas : Bool) : Row :=
  { row with values := (rowAt e vars subformulas (numberOf row.truth vars)).values }

theorem computed_congr (index : row.index = row'.index)
    (same : ∀ x ∈ vars, row.truth x = row'.truth x) :
    row.computed e vars subformulas = row'.computed e vars subformulas := by
  rw [computed, computed, index, TruthTable.numberOf_congr same]

section Named

variable (named : ∀ x ∈ vars, spellsName x = true) (covered : ∀ x ∈ e.shape.vars, x ∈ vars)
include named covered

theorem truth_rowAt_input (declared : x ∈ vars) (n : Nat) :
    (rowAt e vars subformulas n).truth x = valuation n vars x := by
  rw [truth, TruthTable.get?_rowAt_input named covered declared, valuation]

/-- The derived cells of a row of a table are the values under its own input cells. -/
theorem truth_rowAt_derived (mem : g ∈ derivedFormulas e.shape subformulas) (n : Nat) :
    (rowAt e vars subformulas n).truth g.text = g.eval (rowAt e vars subformulas n).truth := by
  have shown := TruthTable.mem_subformulas_of_mem_derivedFormulas mem
  rw [truth, TruthTable.get?_rowAt_derived named covered mem, Option.getD_some]
  exact Formula.eval_congr_of_covered covered shown fun x declared =>
    (truth_rowAt_input named covered declared n).symm

theorem truth_computed_input (declared : x ∈ vars) :
    (row.computed e vars subformulas).truth x = row.truth x :=
  (truth_rowAt_input named covered declared _).trans
    (TruthTable.valuation_numberOf row.truth declared)

theorem truth_computed_derived (mem : g ∈ derivedFormulas e.shape subformulas) :
    (row.computed e vars subformulas).truth g.text =
      g.eval (row.computed e vars subformulas).truth :=
  truth_rowAt_derived named covered mem _

/-- A second computation finds the same inputs and changes nothing. -/
theorem computed_computed (row : Row) : (row.computed e vars subformulas).computed e vars
    subformulas = row.computed e vars subformulas :=
  computed_congr rfl fun _ declared => truth_computed_input named covered declared

section Distinct

variable (nodup : vars.Nodup)
include nodup

theorem keys_computed (row : Row) :
    (row.computed e vars subformulas).values.keys = keysOf e.shape vars subformulas :=
  TruthTable.keys_rowAt named covered nodup _

/-- The derived cells, written over those of a row, and the whole, written once more over its own
cell, are those of the row of the table with the same inputs. -/
theorem insert_cellsOf (keys : row.values.keys = keysOf e.shape vars subformulas) :
    let v := valuation (numberOf row.truth vars) vars
    (row.values.insertMany (TruthTable.cellsOf e.shape subformulas v)).insert e.shape.text
      (e.shape.eval v) = (row.computed e vars subformulas).values := by
  intro v
  -- Every key is there already, so nothing is put behind the old cells.
  have present : ∀ cell ∈ TruthTable.cellsOf e.shape subformulas v,
      cell.1 ∈ row.values.keys := by
    intro cell mem
    rw [keys, keysOf, ← TruthTable.map_fst_cellsOf]
    exact List.mem_append_right _ (List.mem_map_of_mem mem)
  have whole := TruthTable.text_mem_keysOf covered subformulas
  have kept : ((row.values.insertMany (TruthTable.cellsOf e.shape subformulas v)).insert
      e.shape.text (e.shape.eval v)).keys = keysOf e.shape vars subformulas := by
    have written := (OrderedMap.keys_insertMany_of_mem row.values _ present).trans keys
    rw [OrderedMap.keys_insert_of_mem _ _ (written.symm ▸ whole), written]
  refine OrderedMap.eq_of_keys_eq ?_ fun key mem => ?_
  · rw [kept, keys_computed named covered nodup]
  · rw [kept] at mem
    rw [OrderedMap.get?_insert, computed]
    split
    · -- For a lone variable this writes an input, but the value is the old one.
      rename_i same
      rw [← same, TruthTable.get?_rowAt_text covered]
    rcases List.mem_append.mp mem with declared | derived
    · rw [OrderedMap.get?_insertMany_of_notMem, TruthTable.get?_rowAt_input named covered declared,
        TruthTable.get?_assignment_numberOf row.truth declared]
      · exact get?_eq_some_truth (keys ▸ mem)
      · intro b cell
        obtain ⟨g, shown, same⟩ := List.mem_map.mp cell
        cases same
        exact TruthTable.text_notMem_of_mem_derivedFormulas named covered shown declared
    · obtain ⟨g, shown, rfl⟩ := List.mem_map.mp derived
      rw [TruthTable.get?_rowAt_derived named covered shown]
      refine OrderedMap.get?_insertMany_of_mem _ ?_ (List.mem_map_of_mem shown)
      rw [TruthTable.map_fst_cellsOf]
      exact TruthTable.nodup_texts named covered subformulas

/-- The derived cells can be computed whenever all cells are there. -/
theorem refresh_eq_ok (mode : NegationMode)
    (keys : row.values.keys = keysOf e.shape vars subformulas) :
    row.refresh (columnsOf e vars subformulas mode) e.shape =
      .ok (row.computed e vars subformulas) := by
  obtain ⟨memo, evaluated, cells, value⟩ :=
    TruthTable.exists_memo covered subformulas (numberOf row.truth vars)
  rw [TruthTable.cells_eq named covered] at cells
  simp only [refresh, inputs_eq, evaluated, TruthTable.derived_eq_ok, cells, value, bind,
    Except.bind, insert_cellsOf named covered nodup keys]
  rfl

end Distinct

end Named

/-! ### Sessions -/

/-- The invariant of a session: the cells are there, an input cell holds what was last written to
it, and a derived cell what was last written to it since the derived cells were computed. Where
nothing was written, an input is still the first one and a derived cell is the value of its
subformula. -/
structure Kept (row' row : Row) (e : Expr) (vars : List String) (subformulas : Bool)
    (edits : List Edit) : Prop where
  index_eq : row'.index = row.index
  keys_eq : row'.values.keys = keysOf e.shape vars subformulas
  input : ∀ x ∈ vars, row'.truth x = (lastWritten? x edits).getD (row.truth x)
  derived : ∀ g ∈ derivedFormulas e.shape subformulas,
    row'.truth g.text = (lastWritten? g.text (pending edits)).getD (g.eval row'.truth)

/-- The invariant leaves no choice. -/
theorem Kept.unique {row'' : Row} (covered : ∀ x ∈ e.shape.vars, x ∈ vars)
    (kept : row'.Kept row e vars subformulas edits)
    (kept' : row''.Kept row e vars subformulas edits) : row' = row'' := by
  have inputs : ∀ x ∈ vars, row'.truth x = row''.truth x := fun x declared =>
    (kept.input x declared).trans (kept'.input x declared).symm
  have values : row'.values = row''.values := by
    refine OrderedMap.eq_of_keys_eq (kept.keys_eq.trans kept'.keys_eq.symm) fun key mem => ?_
    have mem' : key ∈ row''.values.keys := by rwa [kept'.keys_eq, ← kept.keys_eq]
    rw [get?_eq_some_truth mem, get?_eq_some_truth mem']
    rw [kept.keys_eq] at mem
    rcases List.mem_append.mp mem with declared | derived
    · rw [inputs key declared]
    · obtain ⟨g, shown, rfl⟩ := List.mem_map.mp derived
      have within := TruthTable.mem_subformulas_of_mem_derivedFormulas shown
      rw [kept.derived g shown, kept'.derived g shown,
        Formula.eval_congr_of_covered covered within inputs]
  have index := kept.index_eq.trans kept'.index_eq.symm
  cases row'
  cases row''
  rw [Row.mk.injEq]
  exact ⟨index, values⟩

section Session

variable (named : ∀ x ∈ vars, spellsName x = true) (covered : ∀ x ∈ e.shape.vars, x ∈ vars)
include named covered

/-- A row of a table holds what it is computed from, and nothing is overridden. -/
theorem kept_rowAt (nodup : vars.Nodup) (n : Nat) :
    (rowAt e vars subformulas n).Kept (rowAt e vars subformulas n) e vars subformulas [] where
  index_eq := rfl
  keys_eq := TruthTable.keys_rowAt named covered nodup n
  input _ _ := rfl
  derived _ mem := truth_rowAt_derived named covered mem n

/-- The computation of the derived cells leaves no override. -/
theorem kept_computed (nodup : vars.Nodup) (index : row'.index = row.index)
    (input : ∀ x ∈ vars, row'.truth x = (lastWritten? x edits).getD (row.truth x))
    (settled : pending edits = []) :
    (row'.computed e vars subformulas).Kept row e vars subformulas edits where
  index_eq := index
  keys_eq := keys_computed named covered nodup row'
  input x declared := by rw [truth_computed_input named covered declared, input x declared]
  derived g mem := by
    rw [settled, Edit.lastWritten?_nil, Option.getD_none]
    exact truth_computed_derived named covered mem

/-- If nothing is overridden, the cells are those of the row of the table with the same inputs. -/
theorem Kept.values_eq (nodup : vars.Nodup) (kept : row'.Kept row e vars subformulas edits)
    (settled : pending edits = []) :
    row'.values = (rowAt e vars subformulas (numberOf row'.truth vars)).values := by
  -- The computed row meets the invariant too, so it is the row itself.
  have computed_eq : row'.computed e vars subformulas = row' :=
    (kept_computed named covered nodup kept.index_eq kept.input settled).unique covered kept
  exact (congrArg Row.values computed_eq).symm

/-- A write to a derived cell is an override and touches no other cell. -/
theorem Kept.put_derived (kept : row'.Kept row e vars subformulas edits) {c : Column}
    (listed : c ∈ columnsOf e vars subformulas mode) (derived : c.isInput = false) (b : Bool) :
    (row'.put c.key b).Kept row e vars subformulas (edits ++ [.write c b]) := by
  obtain ⟨g, shown, text, -⟩ := TruthTable.exists_derivedFormula_of_mem listed derived
  have apart : ∀ x ∈ vars, c.key ≠ x := by
    rintro x declared rfl
    exact TruthTable.text_notMem_of_mem_derivedFormulas named covered shown (text ▸ declared)
  have inputs : ∀ x ∈ vars, (row'.put c.key b).truth x = row'.truth x := fun x declared => by
    rw [truth_put, if_neg (apart x declared)]
  refine ⟨kept.index_eq, ?_, fun x declared => ?_, fun h mem => ?_⟩
  · rw [keys_put b (kept.keys_eq ▸ TruthTable.key_mem_keysOf listed), kept.keys_eq]
  · rw [inputs x declared, kept.input x declared, Edit.lastWritten?_concat, Edit.written?,
      if_neg (apart x declared), Option.none_or]
  · -- No subformula sees the override, because none is called like the inputs.
    have within := TruthTable.mem_subformulas_of_mem_derivedFormulas mem
    have same := Formula.eval_congr_of_covered covered within inputs
    have waiting : pending (edits ++ [.write c b]) = pending edits ++ [.write c b] :=
      Edit.pending_concat_of_not_settles derived
    rw [truth_put, kept.derived h mem, same, waiting, Edit.lastWritten?_concat, Edit.written?]
    split <;> rfl

/-- A step succeeds and keeps the invariant. -/
theorem Kept.step (nodup : vars.Nodup) (kept : row'.Kept row e vars subformulas edits)
    {edit : Edit} (listed : edit.On (columnsOf e vars subformulas mode)) :
    ∃ row'', edit.apply (columnsOf e vars subformulas mode) e.shape row' = .ok row'' ∧
      row''.Kept row e vars subformulas (edits ++ [edit]) := by
  cases edit with
  | refresh =>
    refine ⟨_, refresh_eq_ok named covered nodup mode kept.keys_eq, ?_⟩
    refine kept_computed named covered nodup kept.index_eq (fun x declared => ?_)
      (Edit.pending_concat_of_settles rfl)
    rw [kept.input x declared, Edit.lastWritten?_concat]
    rfl
  | write c b =>
    rw [Edit.apply, writeCell_eq]
    cases source : c.isInput with
    | false => exact ⟨_, rfl, kept.put_derived named covered listed source b⟩
    | true =>
      -- The cells are computed for the row in which the input is written already.
      have keys : (row'.put c.key b).values.keys = keysOf e.shape vars subformulas := by
        rw [keys_put b (kept.keys_eq ▸ TruthTable.key_mem_keysOf listed), kept.keys_eq]
      refine ⟨_, refresh_eq_ok named covered nodup mode keys, ?_⟩
      refine kept_computed named covered nodup kept.index_eq (fun x declared => ?_)
        (Edit.pending_concat_of_settles source)
      rw [truth_put, kept.input x declared, Edit.lastWritten?_concat, Edit.written?]
      split <;> rfl

/-- A session succeeds and keeps the invariant. -/
theorem Kept.run (nodup : vars.Nodup) (start : row.Kept row e vars subformulas [])
    (listed : ∀ edit ∈ edits, edit.On (columnsOf e vars subformulas mode)) :
    ∃ row', row.edited (columnsOf e vars subformulas mode) e.shape edits = .ok row' ∧
      row'.Kept row e vars subformulas edits := by
  refine exists_foldlM_eq_ok start fun row' before kept edit mem => ?_
  exact kept.step named covered nodup (listed edit mem)

end Session

/-! ### What a session leaves -/

/-- What a row of a table holds after a session. -/
structure Reflects (row' : Row) (t : TruthTable) (f : Formula) (vars : List String) (row : Row)
    (edits : List Edit) : Prop where
  index_eq : row'.index = row.index
  id_eq : row'.id = row.id
  keys_eq : row'.values.keys = row.values.keys
  /-- An input holds what was last written to it, or else what it held at first. -/
  input : ∀ c ∈ t.columns, c.isInput = true → ∃ b, row.values.get? c.key = some b ∧
    row'.values.get? c.key = some ((lastWritten? c.key edits).getD b)
  /-- A derived cell holds what was last written to it since the derived cells were computed, or
  else the value of its subformula under the inputs of the row as they are now. -/
  derived : ∀ c ∈ t.columns, c.isInput = false → ∃ g ∈ f.subformulas, g.text = c.key ∧
    (∀ h ∈ f.subformulas, h.text = c.key → h = g) ∧
    ∃ b, g.eval? (row'.inputs t.columns).get? = .ok b ∧
      row'.values.get? c.key = some ((lastWritten? c.key (pending edits)).getD b)
  /-- One row of the table has these inputs. -/
  encoded : ∃! same, same ∈ t.rows ∧ assignment same.index vars = row'.inputs t.columns
  /-- After the computation of the derived cells the row holds the same as that one. -/
  settled : ∀ last ∈ edits.getLast?, last.settles = true → ∀ same ∈ t.rows,
    assignment same.index vars = row'.inputs t.columns → row'.values = same.values
  /-- A second computation changes nothing. -/
  idempotent : ∃ fresh, row'.refresh t.columns f = .ok fresh ∧
    fresh.refresh t.columns f = .ok fresh

theorem Kept.reflects (nodup : vars.Nodup) (named : ∀ x ∈ vars, spellsName x = true)
    (covered : ∀ x ∈ e.shape.vars, x ∈ vars) (n : Nat)
    (kept : row'.Kept (rowAt e vars subformulas n) e vars subformulas edits) :
    row'.Reflects (tableOf e vars order subformulas mode) e.shape vars
      (rowAt e vars subformulas n) edits := by
  have keys : (rowAt e vars subformulas n).values.keys = keysOf e.shape vars subformulas :=
    TruthTable.keys_rowAt named covered nodup n
  have inputs := inputs_eq row' e vars subformulas mode
  have encoded : ∃! same, same ∈ (tableOf e vars order subformulas mode).rows ∧
      assignment same.index vars = row'.inputs (columnsOf e vars subformulas mode) := by
    rw [inputs, TruthTable.assignment_numberOf]
    exact (TruthTable.decides_tableOf covered).unique nodup row'.truth
  refine
    { index_eq := kept.index_eq
      id_eq := by rw [id, id, kept.index_eq]
      keys_eq := kept.keys_eq.trans keys.symm
      input := fun c listed source => ?_
      derived := fun c listed source => ?_
      encoded
      settled := fun last mem settles same listed assigned => ?_
      idempotent := ⟨_, refresh_eq_ok named covered nodup mode kept.keys_eq, ?_⟩ }
  · have declared := TruthTable.key_mem_of_isInput listed source
    have present := TruthTable.key_mem_keysOf listed
    refine ⟨_, get?_eq_some_truth (keys ▸ present), ?_⟩
    rw [get?_eq_some_truth (kept.keys_eq ▸ present), kept.input c.key declared]
  · obtain ⟨g, shown, text, -⟩ := TruthTable.exists_derivedFormula_of_mem listed source
    have within := TruthTable.mem_subformulas_of_mem_derivedFormulas shown
    refine ⟨g, within, text, fun h memH same => ?_, g.eval row'.truth, ?_, ?_⟩
    · exact TruthTable.eq_of_text_eq_of_mem named covered memH within (same.trans text.symm)
    · rw [tableOf, inputs]
      exact g.eval?_eq_ok fun x occurs => TruthTable.get?_assignment_numberOf row'.truth
        (Formula.covered_of_mem_subformulas covered within x occurs)
    · rw [get?_eq_some_truth (kept.keys_eq ▸ TruthTable.key_mem_keysOf listed), ← text,
        kept.derived g shown]
  · obtain ⟨before, rfl⟩ := List.getLast?_eq_some_iff.mp mem
    -- The row that is meant is the one with the number of the inputs: there is no other.
    have number : numberOf row'.truth vars ∈ TruthTable.indices order vars.length :=
      TruthTable.mem_indices.mpr (TruthTable.numberOf_lt row'.truth vars)
    rw [encoded.unique ⟨listed, assigned⟩ ⟨List.mem_map_of_mem number, inputs.symm⟩]
    exact kept.values_eq named covered nodup (Edit.pending_concat_of_settles settles)
  · rw [tableOf, refresh_eq_ok named covered nodup mode (keys_computed named covered nodup row'),
      computed_computed named covered]

/-- **Editing sessions stay consistent.** On a row of a table over distinct names that are letters
with digits, any writes of cells and computations of the derived cells succeed in any order. The
row keeps its place and its keys, the inputs hold what was last written, and a derived cell holds
the value of its subformula under the present inputs unless it was overridden since the last
computation. -/
theorem edits_consistent (e : Expr) (vars : List String) (order : RowOrder) (subformulas : Bool)
    (mode : NegationMode) (t : TruthTable) (row : Row) (edits : List Edit) (nodup : vars.Nodup)
    (named : ∀ x ∈ vars, spellsName x = true)
    (built : TruthTable.build e vars order subformulas mode = .ok t) (mem : row ∈ t.rows)
    (listed : ∀ edit ∈ edits, edit.On t.columns) :
    ∃ row', row.edited t.columns e.shape edits = .ok row' ∧
      row'.Reflects t e.shape vars row edits := by
  obtain ⟨covered, rfl⟩ := TruthTable.build_eq_ok_iff.mp built
  obtain ⟨n, -, rfl⟩ := List.mem_map.mp mem
  have start : Kept _ (rowAt e vars subformulas n) e vars subformulas [] :=
    kept_rowAt named covered nodup n
  obtain ⟨row', ended, kept⟩ := start.run named covered nodup listed
  exact ⟨row', ended, kept.reflects nodup named covered n⟩

/-- A session on the table of `((A ∧ B)) ∨ ¬(A ∧ B) → 1`: the conjunction is overridden, an input
written, the whole overridden, and after a computation the conjunction overridden again. -/
def overrides : List Edit :=
  let f := TruthTable.bracketedTwice.shape
  let conjunction := TruthTable.nodeColumn f .preserve
    (.binary ⟨2, 2⟩ .and (.var ⟨0, 0⟩ "A") (.var ⟨1, 0⟩ "B"))
  let whole := TruthTable.nodeColumn f .preserve TruthTable.bracketedTwice
  [.write conjunction true, .write (TruthTable.inputColumn f "A") true, .write whole false,
    .refresh, .write conjunction false]

theorem edits_consistent_overrides :
    let t := tableOf TruthTable.bracketedTwice ["B", "A"] .descending true .preserve
    let row := rowAt TruthTable.bracketedTwice ["B", "A"] true 2
    TruthTable.build TruthTable.bracketedTwice ["B", "A"] .descending true .preserve = .ok t ∧
      row ∈ t.rows ∧ (∀ edit ∈ overrides, edit.On t.columns) ∧
      ∃ row', row.edited t.columns TruthTable.bracketedTwice.shape overrides = .ok row' ∧
        row'.Reflects t TruthTable.bracketedTwice.shape ["B", "A"] row overrides := by
  intro t row
  have built : TruthTable.build TruthTable.bracketedTwice ["B", "A"] .descending true .preserve =
      .ok t := TruthTable.build_eq_ok (by decide)
  have mem : row ∈ t.rows := List.mem_map_of_mem (by decide)
  have listed : ∀ edit ∈ overrides, edit.On t.columns := by decide
  exact ⟨built, mem, listed, edits_consistent TruthTable.bracketedTwice ["B", "A"] .descending true
    .preserve t row overrides (by decide) (by decide) built mem listed⟩

end Row

end Sentential
