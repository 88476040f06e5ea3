import Sentential.Proofs.Analysis.Agreement
import Sentential.Proofs.Karnaugh.Minimization
import Sentential.Proofs.Table.Editing

/-!
# Analyses over edited inputs

The rows of an analysis can be edited and the analysis be made again over the edited rows. A row
keeps its number then, and the map goes by the numbers, while the output of the row is computed from
the inputs that it holds now. So the map shows under a minterm what the formula is worth under the
present inputs of the row with this number. That is the value at the minterm only as long as the
inputs have not been changed in a way that the formula sees.

## Main definitions

* `RowEdit` — an edit of one of the rows
* `Analysis.revised` — the analysis after its rows were edited
* `Row.FollowsInputs` — what a row holds after its inputs were edited
* `Karnaugh.Map.FollowsRows` — a map shows the values under the present inputs of the rows

## Main results

* `RowEdit.Keeps.step`, `RowEdit.Keeps.run` — what an edit and a list of edits keep of all rows
* `Karnaugh.followsRows_of_map?_eq_some` — a map over rows with computed outputs follows their
  inputs
* `Analysis.revision_follows_inputs` — edits of inputs succeed, and rows and map follow them
-/

namespace Sentential

open Token (spellsName)
open TruthTable (columnsOf rowAt tableOf numberOf assignment valuation Numbered)
open Row.Edit (lastWritten? pending)

variable {e : Expr} {f : Formula} {vars : List String} {subformulas : Bool} {order : RowOrder}
variable {mode : NegationMode} {row row' : Row} {rows rows' : List Row} {columns : List Column}

/-! ### Edits of several rows -/

/-- An edit of the row at a place. -/
structure RowEdit where
  place : Nat
  edit : Row.Edit

namespace RowEdit

variable {edits : List RowEdit} {x : RowEdit} {place : Nat}

/-- The rows after an edit. Where there is no row, nothing happens. -/
def apply (columns : List Column) (f : Formula) (rows : List Row) (x : RowEdit) :
    Except Diagnostic (List Row) :=
  match rows[x.place]? with
  | some row => (x.edit.apply columns f row).map (rows.set x.place)
  | none => .ok rows

/-- The edits of the row at a place. -/
def editsAt (place : Nat) (edits : List RowEdit) : List Row.Edit :=
  (edits.filter fun x => x.place == place).map edit

theorem editsAt_concat_self (edits : List RowEdit) (x : RowEdit) :
    editsAt x.place (edits ++ [x]) = editsAt x.place edits ++ [x.edit] := by
  simp [editsAt]

theorem editsAt_concat_of_ne (other : x.place ≠ place) (edits : List RowEdit) :
    editsAt place (edits ++ [x]) = editsAt place edits := by
  simp [editsAt, other]

/-- Nothing is overridden if every edit computes the derived cells. -/
theorem pending_editsAt_eq_nil (settle : ∀ x ∈ edits, x.edit.settles = true) (place : Nat) :
    pending (editsAt place edits) = [] := by
  refine Row.Edit.pending_eq_nil (List.forall_mem_map.mpr fun x listed => ?_)
  exact settle x (List.mem_of_mem_filter listed)

/-- The invariant of the edits: every row is what the edits at its place make of the first row
there. -/
structure Keeps (e : Expr) (vars : List String) (subformulas : Bool) (rows rows' : List Row)
    (edits : List RowEdit) : Prop where
  length_eq : rows'.length = rows.length
  kept : ∀ (place : Nat) (row row' : Row), rows[place]? = some row → rows'[place]? = some row' →
    row'.Kept row e vars subformulas (editsAt place edits)

section Run

variable (named : ∀ x ∈ vars, spellsName x = true) (covered : ∀ x ∈ e.shape.vars, x ∈ vars)
variable (nodup : vars.Nodup)
include named covered nodup

/-- The rows of a table are the first ones. -/
theorem keeps_tableOf (order : RowOrder) (mode : NegationMode) :
    Keeps e vars subformulas (tableOf e vars order subformulas mode).rows
      (tableOf e vars order subformulas mode).rows [] where
  length_eq := rfl
  kept place row row' found found' := by
    obtain rfl : row = row' := Option.some.inj (found.symm.trans found')
    obtain ⟨n, -, rfl⟩ := List.mem_map.mp (List.mem_of_getElem? found)
    exact Row.kept_rowAt named covered nodup n

/-- An edit succeeds and keeps the invariant. -/
theorem Keeps.step (keeps : Keeps e vars subformulas rows rows' edits)
    (listed : x.edit.On (columnsOf e vars subformulas mode)) :
    ∃ rows'', x.apply (columnsOf e vars subformulas mode) e.shape rows' = .ok rows'' ∧
      Keeps e vars subformulas rows rows'' (edits ++ [x]) := by
  cases found' : rows'[x.place]? with
  | none =>
    refine ⟨rows', by rw [apply, found'], keeps.length_eq, fun place row row' found here => ?_⟩
    have other : x.place ≠ place := by
      rintro rfl
      rw [found'] at here
      cases here
    rw [editsAt_concat_of_ne other]
    exact keeps.kept place row row' found here
  | some row' =>
    have less : x.place < rows'.length := (List.getElem?_eq_some_iff.mp found').1
    obtain ⟨row, found⟩ : ∃ row, rows[x.place]? = some row :=
      ⟨_, List.getElem?_eq_getElem (keeps.length_eq ▸ less)⟩
    obtain ⟨row'', applied, kept⟩ :=
      (keeps.kept x.place row row' found found').step named covered nodup listed
    refine ⟨rows'.set x.place row'', ?_, ?_, ?_⟩
    · simp only [apply, found', applied, Except.map]
    · rw [List.length_set, keeps.length_eq]
    · intro place old new foundOld foundNew
      by_cases same : x.place = place
      · -- The edit is one more of the edits of this row, and the row there is the new one.
        subst same
        rw [List.getElem?_set_self less] at foundNew
        obtain rfl : row'' = new := Option.some.inj foundNew
        obtain rfl : row = old := Option.some.inj (found.symm.trans foundOld)
        rw [editsAt_concat_self]
        exact kept
      · rw [List.getElem?_set_ne same] at foundNew
        rw [editsAt_concat_of_ne same]
        exact keeps.kept place old new foundOld foundNew

/-- Edits succeed and keep the invariant. -/
theorem Keeps.run (start : Keeps e vars subformulas rows rows [])
    (listed : ∀ x ∈ edits, x.edit.On (columnsOf e vars subformulas mode)) :
    ∃ rows', edits.foldlM (apply (columnsOf e vars subformulas mode) e.shape) rows = .ok rows' ∧
      Keeps e vars subformulas rows rows' edits := by
  refine exists_foldlM_eq_ok start fun rows' before keeps x mem => ?_
  exact keeps.step named covered nodup (listed x mem)

end Run

/-- Rows keep their numbers. -/
theorem Keeps.map_index_eq (keeps : Keeps e vars subformulas rows rows' edits) :
    rows'.map Row.index = rows.map Row.index := by
  refine List.ext_getElem ?_ fun place less' less => ?_
  · rw [List.length_map, List.length_map, keeps.length_eq]
  · rw [List.getElem_map, List.getElem_map]
    exact (keeps.kept place _ _ (List.getElem?_eq_getElem _) (List.getElem?_eq_getElem _)).index_eq

end RowEdit

/-! ### Rows -/

/-- The number of some values means the same as another number if the values are those that the
other number means. -/
theorem TruthTable.assignment_numberOf_eq_iff {v : String → Bool} {n : Nat} (nodup : vars.Nodup)
    (less : n < 2 ^ vars.length) : assignment (numberOf v vars) vars = assignment n vars ↔
      ∀ x ∈ vars, v x = valuation n vars x := by
  constructor
  · intro same x declared
    rw [valuation, ← same, get?_assignment_numberOf v declared, Option.getD_some]
  · intro same
    have number : numberOf v vars = n := by
      refine index_unique nodup (numberOf_lt v vars) less fun x declared => ?_
      rw [get?_assignment_numberOf v declared, same x declared, get?_assignment declared]
    rw [number]

/-- What holds of the keys of all input columns holds of all names. -/
theorem TruthTable.forall_input_iff (e : Expr) (vars : List String) (subformulas : Bool)
    (mode : NegationMode) (P : String → Prop) :
    (∀ c ∈ columnsOf e vars subformulas mode, c.isInput = true → P c.key) ↔ ∀ x ∈ vars, P x := by
  constructor
  · intro each x declared
    refine each (inputColumn e.shape x) ?_ rfl
    rw [columnsOf_eq]
    exact List.mem_append_left _ (List.mem_map_of_mem declared)
  · intro each c listed source
    exact each c.key (key_mem_of_isInput listed source)

namespace Row

variable {edits : List Edit} {n : Nat}

/-- What a row of a table holds after its inputs were edited. -/
structure FollowsInputs (row' : Row) (t : TruthTable) (vars : List String) (row : Row)
    (edits : List Edit) : Prop where
  index_eq : row'.index = row.index
  id_eq : row'.id = row.id
  /-- An input holds what was last written to it, or else what it held at first. -/
  input : ∀ c ∈ t.columns, c.isInput = true → ∃ b, row.values.get? c.key = some b ∧
    row'.values.get? c.key = some ((lastWritten? c.key edits).getD b)
  /-- The cells are those of the row of the table with these inputs. -/
  values : ∃ same ∈ t.rows, assignment same.index vars = row'.inputs t.columns ∧
    row'.values = same.values
  /-- The number of the row means its inputs exactly if every input that was written holds in the
  end what it held at first. -/
  means_iff : row'.inputs t.columns = assignment row'.index vars ↔
    ∀ c ∈ t.columns, c.isInput = true → ∀ b ∈ lastWritten? c.key edits,
      row.values.get? c.key = some b

section Kept

variable (named : ∀ x ∈ vars, spellsName x = true) (covered : ∀ x ∈ e.shape.vars, x ∈ vars)
variable (nodup : vars.Nodup)
include named covered nodup

/-- The output is the value of the formula under the inputs. -/
theorem Kept.eval?_inputs (kept : row'.Kept row e vars subformulas edits)
    (settled : pending edits = []) (mode : NegationMode) :
    e.shape.eval? (row'.inputs (columnsOf e vars subformulas mode)).get? =
      .ok (row'.truth e.shape.text) := by
  rw [inputs_eq, truth, kept.values_eq named covered nodup settled,
    TruthTable.get?_rowAt_text covered, Option.getD_some]
  exact TruthTable.eval?_assignment covered _

theorem Kept.followsInputs (less : n < 2 ^ vars.length)
    (kept : row'.Kept (rowAt e vars subformulas n) e vars subformulas edits)
    (settled : pending edits = []) :
    row'.FollowsInputs (tableOf e vars order subformulas mode) vars (rowAt e vars subformulas n)
      edits := by
  have reflects : row'.Reflects (tableOf e vars order subformulas mode) e.shape vars
      (rowAt e vars subformulas n) edits := kept.reflects nodup named covered n
  have inputs := inputs_eq row' e vars subformulas mode
  refine ⟨reflects.index_eq, reflects.id_eq, reflects.input, ?_, ?_⟩
  · refine ⟨rowAt e vars subformulas (numberOf row'.truth vars), List.mem_map_of_mem ?_,
      inputs.symm, kept.values_eq named covered nodup settled⟩
    exact TruthTable.mem_indices.mpr (TruthTable.numberOf_lt row'.truth vars)
  · -- Name by name, the row holds the digit of its number, or what was written is this digit.
    have names := TruthTable.forall_input_iff e vars subformulas mode fun x =>
      ∀ b ∈ lastWritten? x edits, (rowAt e vars subformulas n).values.get? x = some b
    rw [kept.index_eq, tableOf, inputs, names]
    refine (TruthTable.assignment_numberOf_eq_iff nodup less).trans
      (forall₂_congr fun x declared => ?_)
    have first : (rowAt e vars subformulas n).truth x = valuation n vars x :=
      truth_rowAt_input named covered declared n
    rw [kept.input x declared, TruthTable.get?_rowAt_input named covered declared,
      TruthTable.get?_assignment declared, first]
    cases lastWritten? x edits <;> simp [eq_comm]

end Kept

end Row

/-! ### Maps -/

namespace Karnaugh

variable {m : Nat} {s key : String} {map : Map}

/-- A map shows the values of a formula under the inputs that the rows hold. -/
structure Map.FollowsRows (map : Map) (rows : List Row) (f : Formula) (columns : List Column)
    (vars : List String) : Prop where
  /-- Every minterm is the number of one row. -/
  numbered : ∀ m < 2 ^ vars.length, ∃! row, row ∈ rows ∧ row.index = (m : Nat)
  /-- At every place stands a minterm. -/
  minterm : ∀ r < map.minterms.height, ∀ c < map.minterms.width,
    ∃ m < 2 ^ vars.length, map.minterms.cell r c = (m : Nat)
  /-- The cell of a minterm shows the value under the inputs of the row with this number. -/
  cell : ∀ r < map.minterms.height, ∀ c < map.minterms.width, ∀ row ∈ rows,
    row.index = map.minterms.cell r c →
      f.eval? (row.inputs columns).get? = .ok (map.values.cell r c)
  /-- The minimized text has these values under the assignments of the minterms. -/
  minimized : ∀ m < 2 ^ vars.length, ∀ row ∈ rows, row.index = (m : Nat) →
    ∃ b, f.eval? (row.inputs columns).get? = .ok b ∧ HasTruthAt vars m map.minimized b
  /-- It is read as an equivalent formula exactly if the formula cannot tell the inputs of any row
  from the assignment that the number of the row means. -/
  equivalent_iff : (∃ u, Expr.ofText map.minimized = .ok u ∧
      ∀ v b, u.shape.HasValue v b ↔ f.HasValue v b) ↔
    ∀ row ∈ rows, f.eval? (row.inputs columns).get? = f.eval? (assignment row.index vars).get?

theorem bounds_of_map?_eq_some (found : map? vars rows key = some map) :
    2 ≤ vars.length ∧ vars.length ≤ 4 := by
  by_contra outside
  rw [map?, if_neg outside] at found
  cases found

/-- A text with the values of a function is read as an equivalent formula if the function is that of
the formula. -/
theorem exists_equivalent_iff {g : Nat → Bool} (covered : ∀ x ∈ f.vars, x ∈ vars)
    (values : ∀ m < 2 ^ vars.length, HasTruthAt vars m s (g m)) :
    (∃ u, Expr.ofText s = .ok u ∧ ∀ v b, u.shape.HasValue v b ↔ f.HasValue v b) ↔
      ∀ m < 2 ^ vars.length, g m = f.eval (valuation m vars) := by
  constructor
  · rintro ⟨u, read, equivalent⟩ m less
    obtain ⟨u', read', value⟩ := values m less
    obtain rfl : u = u' := Except.ok.inj (read.symm.trans read')
    rw [TruthTable.eval?_assignment (covered_of_eval?_assignment value), Except.ok.injEq] at value
    have same := (equivalent (valuation m vars) (g m)).mp (Formula.hasValue_iff.mpr value)
    exact (Formula.hasValue_iff.mp same).symm
  · intro same
    refine exists_equivalent covered fun m less => ?_
    rw [← same m less]
    exact values m less

/-- A map over numbered rows whose outputs were computed from their inputs follows these inputs. -/
theorem followsRows_of_map?_eq_some (nodup : vars.Nodup)
    (named : ∀ x ∈ vars, spellsName x = true) (covered : ∀ x ∈ f.vars, x ∈ vars)
    (numbered : Numbered rows vars.length)
    (output : ∀ row ∈ rows, f.eval? (row.inputs columns).get? = .ok (row.truth key))
    (found : map? vars rows key = some map) : map.FollowsRows rows f columns vars := by
  obtain ⟨two, four⟩ := bounds_of_map?_eq_some found
  obtain ⟨dr, dc, rowLabels, columnLabels, smallR, smallC, count, labelsR, labelsC, found'⟩ :=
    map?_eq_some two four rows key
  obtain rfl : mapOf vars rows key rowLabels columnLabels = map :=
    Option.some.inj (found'.symm.trans found)
  obtain ⟨height, width, code⟩ := mintermGrid_eq smallR smallC labelsR labelsC
  have minimized :=
    (minimizes_mapOf smallR smallC labelsR labelsC count nodup named rows key).minimized
  refine
    { numbered := fun m less => numbered.existsUnique less
      minterm := fun r inR c inC => ?_
      cell := fun r _ c _ row mem number => ?_
      minimized := fun m less row mem number => ⟨_, output row mem, ?_⟩
      equivalent_iff := (exists_equivalent_iff covered minimized).trans ?_ }
  · have inR : r < 2 ^ dr := height ▸ inR
    have inC : c < 2 ^ dc := width ▸ inC
    exact ⟨mintermAt dc (r, c), count ▸ mintermAt_lt inR inC, code r inR c inC⟩
  · rw [output row mem, ← valueAt_index numbered mem, number]
    rfl
  · rw [← valueAt_index numbered mem, number]
    exact minimized m less
  · constructor
    · intro same row mem
      obtain ⟨m, less, number⟩ := numbered.exists_index_eq mem
      rw [output row mem, ← valueAt_index numbered mem, number, same m less,
        TruthTable.eval?_assignment covered]
    · intro same m less
      obtain ⟨row, ⟨mem, number⟩, -⟩ := numbered.existsUnique less
      have value := same row mem
      rw [output row mem, ← valueAt_index numbered mem, number,
        TruthTable.eval?_assignment covered] at value
      exact Except.ok.inj value

end Karnaugh

/-! ### Analyses -/

namespace Analysis

open RowEdit (editsAt)

variable {edits : List RowEdit} {settings : Settings} {report : Option Report}

/-- The analysis after its rows were edited, if there are rows. -/
def revised (a : Analysis) (edits : List RowEdit) : Except Diagnostic (Option Analysis) :=
  (edits.foldlM (RowEdit.apply a.table.columns a.expr.shape) a.table.rows).map a.replaceRows

/-- What an analysis shows after its inputs were edited. -/
structure FollowsEdits (a' a : Analysis) (edits : List RowEdit) : Prop where
  length_eq : a'.table.rows.length = a.table.rows.length
  row : ∀ (place : Nat) (row row' : Row), a.table.rows[place]? = some row →
    a'.table.rows[place]? = some row' →
      row'.FollowsInputs a.table a.vars row (editsAt place edits)
  exists_karnaugh : 2 ≤ a.vars.length → a.vars.length ≤ 4 → ∃ map, a'.karnaugh = some map
  karnaugh : ∀ map, a'.karnaugh = some map →
    map.FollowsRows a'.table.rows a.expr.shape a.table.columns a.vars

theorem exists_replaceRows_eq (a : Analysis) (nonempty : rows ≠ []) : ∃ classification,
    a.replaceRows rows = some
      { a with
        table := { a.table with rows, classification }
        karnaugh := Karnaugh.map? a.vars rows a.table.outputKey } := by
  rw [replaceRows, TruthTable.classify?, Classification.ofValues?_of_ne_nil]
  · exact ⟨_, rfl⟩
  · simpa using nonempty

section Edited

variable (named : ∀ x ∈ vars, spellsName x = true) (covered : ∀ x ∈ e.shape.vars, x ∈ vars)
variable (nodup : vars.Nodup)
include named covered nodup

/-- Edited rows are a table to begin with, so there is an analysis over them. -/
theorem exists_replaceRows_followsEdits
    (keeps : RowEdit.Keeps e vars settings.subformulas (ofParts e vars settings report).table.rows
      rows edits)
    (settle : ∀ x ∈ edits, x.edit.settles = true) :
    ∃ a', (ofParts e vars settings report).replaceRows rows = some a' ∧
      a'.FollowsEdits (ofParts e vars settings report) edits := by
  have decides : (ofParts e vars settings report).table.Decides e.shape vars settings.order :=
    TruthTable.decides_tableOf covered
  have settled := RowEdit.pending_editsAt_eq_nil settle
  have nonempty : rows ≠ [] := by
    rintro rfl
    have length := keeps.length_eq.trans decides.length_rows
    exact absurd length (Nat.two_pow_pos vars.length).ne
  have numbered : Numbered rows vars.length := by
    rw [Numbered, keeps.map_index_eq]
    exact decides.numbered
  obtain ⟨classification, replaced⟩ :=
    exists_replaceRows_eq (ofParts e vars settings report) nonempty
  refine ⟨_, replaced, keeps.length_eq, fun place row row' found found' => ?_, fun two four => ?_,
    fun map found => ?_⟩
  · have kept := keeps.kept place row row' found found'
    obtain ⟨n, listed, rfl⟩ := List.mem_map.mp (List.mem_of_getElem? found)
    exact kept.followsInputs named covered nodup (TruthTable.mem_indices.mp listed)
      (settled place)
  · obtain ⟨_, _, _, _, -, -, -, -, -, found⟩ := Karnaugh.map?_eq_some two four rows e.shape.text
    exact ⟨_, found⟩
  · refine Karnaugh.followsRows_of_map?_eq_some nodup named covered numbered
      (fun row' mem => ?_) found
    obtain ⟨place, less', rfl⟩ := List.getElem_of_mem mem
    have less : place < (ofParts e vars settings report).table.rows.length :=
      keeps.length_eq ▸ less'
    have kept := keeps.kept place _ _ (List.getElem?_eq_getElem less)
      (List.getElem?_eq_getElem less')
    exact kept.eval?_inputs named covered nodup (settled place) settings.negation

end Edited

/-- **Analyses follow edited inputs.** In an analysis, within any limits, over names that are
letters with digits, any writes of inputs and computations of derived cells succeed, in any rows and
any order, and the analysis can be made again. Every row keeps its number, holds the inputs that
were last written and is otherwise the row of the table with these inputs; its number means them
only if no input ends with another value than it had. The map shows under the number of a row the
value under these inputs, and its minimized text is equivalent to the formula exactly if in no row
this is another value than that under the assignment that the number means. -/
theorem revision_follows_inputs (limits : Limits) (text : Option String) (declared : List String)
    (settings : Settings) (target : Option Target) (a : Analysis) (edits : List RowEdit)
    (analysed : run text declared settings target limits = .ok a)
    (named : ∀ x ∈ declaredNames declared, spellsName x = true)
    (inputs : ∀ x ∈ edits, x.edit.On a.table.columns ∧ x.edit.settles = true) :
    ∃ a', a.revised edits = .ok (some a') ∧ a'.FollowsEdits a edits := by
  obtain ⟨e, -, analysed⟩ := run_eq_ok_iff.mp analysed
  obtain ⟨covered, report, -, rfl⟩ := ofExpr_eq_ok_iff.mp analysed
  have nodup : (declaredNames declared).Nodup := nodup_distinct _
  have start : RowEdit.Keeps e (declaredNames declared) settings.subformulas _ _ [] :=
    RowEdit.keeps_tableOf named covered nodup settings.order settings.negation
  obtain ⟨rows, edited, keeps⟩ :=
    start.run named covered nodup fun x mem => (inputs x mem).1
  obtain ⟨a', replaced, follows⟩ := exists_replaceRows_followsEdits named covered nodup keeps
    fun x mem => (inputs x mem).2
  exact ⟨a', (congrArg (Except.map _) edited).trans (congrArg Except.ok replaced), follows⟩

/-- Edits of two rows of `P → Q`: both inputs of one are written, the other is computed anew. -/
def twoRowEdits : List RowEdit :=
  let f : Formula := .binary .implies (.var "P") (.var "Q")
  [⟨1, .write (TruthTable.inputColumn f "Q") true⟩, ⟨3, .refresh⟩,
    ⟨1, .write (TruthTable.inputColumn f "P") false⟩]

theorem revision_follows_inputs_twoRowEdits : ∃ a a',
    run (some "p -> q") ["q", " P"] {} none = .ok a ∧
      (∀ x ∈ twoRowEdits, x.edit.On a.table.columns ∧ x.edit.settles = true) ∧
      a.revised twoRowEdits = .ok (some a') ∧ a'.FollowsEdits a twoRowEdits := by
  have read : readExpr (some "p -> q") =
      .ok (.binary ⟨2, 0⟩ .implies (.var ⟨0, 0⟩ "P") (.var ⟨1, 0⟩ "Q")) := by decide +kernel
  have names : declaredNames ["q", " P"] = ["Q", "P"] := by decide +kernel
  have analysed := run_eq_ofParts read names (by decide) {}
  obtain ⟨a', revised, follows⟩ := revision_follows_inputs _ _ _ _ _ _ twoRowEdits analysed
    (by rw [names]; decide) (by decide)
  exact ⟨_, a', analysed, by decide, revised, follows⟩

/-- The second input of `A ∧ B` is written in the row with number two. -/
def secondWritten : List RowEdit :=
  [⟨2, .write (TruthTable.inputColumn (.binary .and (.var "A") (.var "B")) "B") true⟩]

/-- The number of the row does not mean its inputs then. The map shows a value under this minterm
that is not that of the formula there, and its minimized text is not an equivalent formula. -/
theorem secondWritten_misleads : ∃ a a' map,
    run (some "A & B") ["A", "B"] {} none = .ok a ∧
      (∀ x ∈ declaredNames ["A", "B"], spellsName x = true) ∧
      (∀ x ∈ secondWritten, x.edit.On a.table.columns ∧ x.edit.settles = true) ∧
      a.revised secondWritten = .ok (some a') ∧
      (∃ row ∈ a'.table.rows, row.inputs a.table.columns ≠ assignment row.index a.vars) ∧
      a'.karnaugh = some map ∧ map.minterms.cell 1 0 = 2 ∧ map.values.cell 1 0 = true ∧
      a.expr.shape.eval? (assignment 2 a.vars).get? = .ok false ∧
      ¬ ∃ u, Expr.ofText map.minimized = .ok u ∧
        ∀ v b, u.shape.HasValue v b ↔ a.expr.shape.HasValue v b := by
  have read : readExpr (some "A & B") =
      .ok (.binary ⟨2, 0⟩ .and (.var ⟨0, 0⟩ "A") (.var ⟨1, 0⟩ "B")) := by decide +kernel
  have names : declaredNames ["A", "B"] = ["A", "B"] := by decide +kernel
  have analysed := run_eq_ofParts read names (by decide) {}
  refine ⟨_, _, _, analysed, by rw [names]; decide, by decide, rfl, ?_, rfl, by decide +kernel,
    by decide +kernel, by decide +kernel, ?_⟩
  · suffices differ : ∃ row ∈ _, (Row.inputs row _).get? "B" ≠ (assignment row.index _).get? "B" by
      obtain ⟨row, mem, differ⟩ := differ
      exact ⟨row, mem, fun same => differ (congrArg (OrderedMap.get? · "B") same)⟩
    decide +kernel
  · rintro ⟨u, ofText, equivalent⟩
    -- The text is read as the first variable, and this is true without the second one.
    have first : Expr.ofText "A" = .ok (.var ⟨0, 0⟩ "A") := by decide +kernel
    have minimized : Expr.ofText "A" = .ok u := ofText
    obtain rfl : .var ⟨0, 0⟩ "A" = u := Except.ok.inj (first.symm.trans minimized)
    have value := (equivalent (fun x => decide (x = "A")) true).mp (Formula.hasValue_iff.mpr rfl)
    exact absurd (Formula.hasValue_iff.mp value) (by decide)

end Analysis

end Sentential
