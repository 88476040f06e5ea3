import Mathlib.Data.List.Nodup
import Sentential.Proofs.Parse.RoundTrip
import Sentential.Proofs.Table.Decision

/-!
# Columns and cells

The columns of an expression are made for the nodes that differ as formulas, but their cells are
kept under texts. Over names that are letters with digits this makes no difference: a text is read
back as one formula only, so no two columns share a key, and no look-up by text finds the cells of
another column. Which formulas get columns, and in which order, does not depend on the marks of the
expression.

## Main definitions

* `TruthTable.derivedFormulas` — the formulas with derived columns, in order
* `TruthTable.Tabulates` — what the columns and the cells of a table are
* `TruthTable.Ordered` — columns for all compound subformulas, each after those that it needs

## Main results

* `Formula.eq_of_text_eq` — formulas over such names are equal if their texts are
* `TruthTable.map_shape_derivedNodes` — marks have no say in which formulas get columns
* `TruthTable.keys_rowAt`, `TruthTable.get?_rowAt_derived` — the cells of a row
* `TruthTable.columns_exact` — a table over distinct names has the right columns and cells
-/

namespace Sentential

open Token (spellsName)

theorem Formula.eq_of_text_eq {f g : Formula} (namedF : ∀ x ∈ f.vars, spellsName x = true)
    (namedG : ∀ x ∈ g.vars, spellsName x = true) (same : f.text = g.text) : f = g := by
  obtain ⟨u, read, rfl⟩ := Expr.exists_ofText_formula namedF
  obtain ⟨u', read', rfl⟩ := Expr.exists_ofText_formula namedG
  rw [same] at read
  rw [Except.ok.inj (read.symm.trans read')]

/-- Among members with distinct keys only one has a given key. -/
theorem exists_filter_eq_singleton {α κ : Type} [DecidableEq κ] {key : α → κ} {l : List α} {k : κ}
    (nodup : (l.map key).Nodup) (mem : k ∈ l.map key) :
    ∃ a, l.filter (fun a => decide (key a = k)) = [a] ∧ key a = k := by
  induction l with
  | nil => cases mem
  | cons a rest ih =>
    rw [List.map_cons, List.nodup_cons] at nodup
    by_cases here : key a = k
    · have later : rest.filter (fun a => decide (key a = k)) = [] := by
        rw [List.filter_eq_nil_iff]
        intro b memB same
        refine nodup.1 (List.mem_map.mpr ⟨b, memB, ?_⟩)
        rw [of_decide_eq_true same, here]
      exact ⟨a, by simp [here, later], here⟩
    · have memRest : k ∈ rest.map key :=
        (List.mem_cons.mp mem).resolve_left fun same => here same.symm
      obtain ⟨b, only, keyed⟩ := ih nodup.2 memRest
      exact ⟨b, by simpa [here] using only, keyed⟩

namespace TruthTable

variable {e : Expr} {f g h : Formula} {vars : List String} {x : String} {subformulas : Bool}
variable {order : RowOrder} {mode : NegationMode} {n : Nat}

/-! ### The formulas with derived columns -/

/-- The formulas that get derived columns, in the order of the columns. -/
def derivedFormulas (f : Formula) (subformulas : Bool) : List Formula :=
  if subformulas then
    match f with
    | .const value => [.const value]
    | _ => distinct (f.subformulas.filter fun g => !(g.isVar || g.isConst))
  else if f.isVar then [] else [f]

theorem map_shape_derivedNodes (e : Expr) (subformulas : Bool) :
    (derivedNodes e subformulas).map Expr.shape = derivedFormulas e.shape subformulas := by
  have compounds : ∀ e : Expr,
      (firstOccurrences Expr.shape
        (e.postorder.filter fun n => !(n.shape.isVar || n.shape.isConst))).map Expr.shape =
      distinct (e.shape.subformulas.filter fun g => !(g.isVar || g.isConst)) := by
    intro e
    rw [map_firstOccurrences, ← Expr.map_shape_postorder, List.filter_map]
    rfl
  cases subformulas with
  | true =>
    cases e with
    | const => rfl
    | var | not | binary => exact compounds _
  | false => cases e <;> rfl

theorem compound_iff : (!(f.isVar || f.isConst)) = true ↔ f.operands ≠ [] := by
  cases f <;> simp [Formula.isVar, Formula.isConst, Formula.operands]

/-- With subformulas shown, these are the compound ones, and the whole if it is a constant. -/
theorem mem_derivedFormulas_true :
    g ∈ derivedFormulas f true ↔
      g ∈ f.subformulas ∧ (g.operands ≠ [] ∨ g = f ∧ f.isConst = true) := by
  cases f with
  | const value =>
    simp only [derivedFormulas, if_true, Formula.subformulas, List.mem_singleton]
    constructor
    · rintro rfl
      exact ⟨rfl, Or.inr ⟨rfl, rfl⟩⟩
    · exact And.left
  | var | not | binary =>
    simp only [derivedFormulas, if_true, mem_distinct, List.mem_filter, compound_iff]
    simp [Formula.isConst]

theorem mem_subformulas_of_mem_derivedFormulas (mem : g ∈ derivedFormulas f subformulas) :
    g ∈ f.subformulas := by
  cases subformulas with
  | true => exact (mem_derivedFormulas_true.mp mem).1
  | false =>
    simp only [derivedFormulas, Bool.false_eq_true, if_false] at mem
    split at mem
    · cases mem
    · rw [List.mem_singleton.mp mem]
      exact f.mem_subformulas_self

theorem isVar_of_mem_derivedFormulas (mem : g ∈ derivedFormulas f subformulas) :
    g.isVar = false := by
  cases subformulas with
  | true =>
    rcases (mem_derivedFormulas_true.mp mem).2 with compound | ⟨rfl, isConst⟩
    · cases g with
      | var => exact absurd rfl compound
      | const | not | binary => rfl
    · cases g with
      | var => cases isConst
      | const | not | binary => rfl
  | false =>
    simp only [derivedFormulas, Bool.false_eq_true, if_false] at mem
    split at mem
    · cases mem
    · rename_i compound
      rw [List.mem_singleton.mp mem]
      exact Bool.eq_false_iff.mpr compound

/-- The whole formula has a derived column, unless it is a variable. -/
theorem self_mem_derivedFormulas (compound : f.isVar = false) (subformulas : Bool) :
    f ∈ derivedFormulas f subformulas := by
  cases subformulas with
  | true =>
    refine mem_derivedFormulas_true.mpr ⟨f.mem_subformulas_self, ?_⟩
    cases f <;> simp_all [Formula.operands, Formula.isVar, Formula.isConst]
  | false => simp [derivedFormulas, compound]

/-- Shown subformulas stand in the order in which they are first completed. -/
theorem pairwise_derivedFormulas (f : Formula) :
    (derivedFormulas f true).Pairwise fun g h => f.subformulas.idxOf g < f.subformulas.idxOf h := by
  cases f with
  | const value => exact List.pairwise_singleton _ _
  | var | not | binary =>
    simp only [derivedFormulas, if_true, distinct_filter]
    exact (pairwise_idxOf_distinct _).filter _

theorem nodup_derivedFormulas (f : Formula) (subformulas : Bool) :
    (derivedFormulas f subformulas).Nodup := by
  cases subformulas with
  | true =>
    refine (pairwise_derivedFormulas f).imp fun less same => ?_
    rw [same] at less
    exact Nat.lt_irrefl _ less
  | false =>
    simp only [derivedFormulas, Bool.false_eq_true, if_false]
    split <;> simp

/-- The whole formula is completed last. -/
theorem getLast?_derivedFormulas (compound : f.isVar = false) :
    (derivedFormulas f true).getLast? = some f := by
  have new := f.notMem_subformulas_of_operands
  have kept : ∀ {p : Formula → Bool}, p f = true → (distinct (f.subformulas.filter p)).getLast? =
      some f := by
    intro p holds
    rw [Formula.subformulas_eq, List.filter_append, List.filter_cons_of_pos holds, List.filter_nil,
      distinct_concat_of_notMem fun mem => new (List.mem_of_mem_filter mem), List.getLast?_concat]
  cases f with
  | var => cases compound
  | const => rfl
  | not | binary => exact kept rfl

/-- Compound operands of a shown subformula are shown before it. -/
theorem operand_shown_before {before after : List Formula}
    (cut : derivedFormulas f true = before ++ g :: after) (operand : h ∈ g.operands)
    (compound : h.operands ≠ []) : h ∈ before := by
  have ordered := pairwise_derivedFormulas f
  have mem : g ∈ derivedFormulas f true := by simp [cut]
  have first := f.operandsFirst_subformulas
  have shown := mem_subformulas_of_mem_derivedFormulas mem
  have memH : h ∈ derivedFormulas f true :=
    mem_derivedFormulas_true.mpr ⟨first.mem shown operand, Or.inl compound⟩
  have less := first g shown h operand
  rw [cut] at ordered memH
  rcases List.mem_append.mp memH with earlier | later
  · exact earlier
  · -- Neither the formula itself nor one behind it is completed before it.
    rcases List.mem_cons.mp later with rfl | later
    · exact absurd less (Nat.lt_irrefl _)
    · have behind := (List.pairwise_cons.mp (List.pairwise_append.mp ordered).2.1).1 h later
      omega

/-- What a shown subformula is computed from is a constant, a declared name or shown before it. -/
theorem operand_kept_before {before after : List Formula} (covered : ∀ x ∈ f.vars, x ∈ vars)
    (cut : derivedFormulas f true = before ++ g :: after) (operand : h ∈ g.operands) :
    h.text = "0" ∨ h.text = "1" ∨ h.text ∈ vars ∨ h ∈ before := by
  cases h with
  | const value => cases value <;> simp [Formula.text, Formula.constText]
  | var x =>
    have shown : g ∈ f.subformulas :=
      mem_subformulas_of_mem_derivedFormulas (cut ▸ List.mem_append_right _ List.mem_cons_self)
    have occurs : x ∈ g.vars :=
      Formula.vars_subset_of_mem_operands operand (List.mem_singleton_self x)
    exact Or.inr (Or.inr (Or.inl
      (Formula.covered_of_mem_subformulas covered shown x occurs)))
  | not | binary =>
    exact Or.inr (Or.inr (Or.inr (operand_shown_before cut operand (by simp [Formula.operands]))))

/-! ### Columns -/

/-- The column of a declared name. -/
def inputColumn (f : Formula) (x : String) : Column := ⟨x, x, decide (x = f.text), .input⟩

/-- The column of a node. -/
def nodeColumn (f : Formula) (mode : NegationMode) (n : Expr) : Column where
  key := n.shape.text
  label := mode.apply n.text
  isOutput := decide (n.shape.text = f.text)
  source := .node n.mark.id (n.shape.operands.map Formula.text)

theorem columnsOf_eq (e : Expr) (vars : List String) (subformulas : Bool) (mode : NegationMode) :
    columnsOf e vars subformulas mode = vars.map (inputColumn e.shape) ++
      (derivedNodes e subformulas).map (nodeColumn e.shape mode) := rfl

/-- The keys of the columns for a formula. -/
def keysOf (f : Formula) (vars : List String) (subformulas : Bool) : List String :=
  vars ++ (derivedFormulas f subformulas).map Formula.text

theorem map_text_derivedFormulas (e : Expr) (subformulas : Bool) :
    (derivedFormulas e.shape subformulas).map Formula.text =
      (derivedNodes e subformulas).map fun n => n.shape.text := by
  rw [← map_shape_derivedNodes, List.map_map]
  rfl

theorem map_key_columnsOf (e : Expr) (vars : List String) (subformulas : Bool)
    (mode : NegationMode) :
    (columnsOf e vars subformulas mode).map Column.key = keysOf e.shape vars subformulas := by
  rw [columnsOf_eq, keysOf, map_text_derivedFormulas, List.map_append, List.map_map, List.map_map]
  exact congrArg (· ++ _) (List.map_id vars)

theorem filter_isInput_columnsOf (e : Expr) (vars : List String) (subformulas : Bool)
    (mode : NegationMode) :
    (columnsOf e vars subformulas mode).filter Column.isInput =
      vars.map (inputColumn e.shape) := by
  rw [columnsOf_eq, List.filter_append, List.filter_eq_self.mpr, List.filter_eq_nil_iff.mpr,
    List.append_nil]
  · exact List.forall_mem_map.mpr fun _ _ => Bool.false_ne_true
  · exact List.forall_mem_map.mpr fun _ _ => rfl

theorem key_mem_keysOf {c : Column} (mem : c ∈ columnsOf e vars subformulas mode) :
    c.key ∈ keysOf e.shape vars subformulas := by
  rw [← map_key_columnsOf e vars subformulas mode]
  exact List.mem_map_of_mem mem

theorem key_mem_of_isInput {c : Column} (mem : c ∈ columnsOf e vars subformulas mode)
    (source : c.isInput = true) : c.key ∈ vars := by
  have listed := List.mem_filter.mpr ⟨mem, source⟩
  rw [filter_isInput_columnsOf] at listed
  obtain ⟨x, declared, rfl⟩ := List.mem_map.mp listed
  exact declared

/-- The output column is marked by its key. -/
theorem isOutput_eq_of_mem {c : Column} (mem : c ∈ columnsOf e vars subformulas mode) :
    c.isOutput = decide (c.key = e.shape.text) := by
  rw [columnsOf_eq, List.mem_append, List.mem_map, List.mem_map] at mem
  rcases mem with ⟨x, -, rfl⟩ | ⟨n, -, rfl⟩ <;> rfl

/-- A derived column belongs to one of the derived formulas. -/
theorem exists_derivedFormula_of_mem {c : Column} (mem : c ∈ columnsOf e vars subformulas mode)
    (derived : c.isInput = false) : ∃ g ∈ derivedFormulas e.shape subformulas,
      g.text = c.key ∧ c.dependencies = g.operands.map Formula.text := by
  rw [columnsOf_eq, List.mem_append, List.mem_map, List.mem_map] at mem
  rcases mem with ⟨x, -, rfl⟩ | ⟨n, mem, rfl⟩
  · cases derived
  · refine ⟨n.shape, ?_, rfl, rfl⟩
    rw [← map_shape_derivedNodes]
    exact List.mem_map_of_mem mem

/-- The whole formula has a column, which may be that of a declared name. -/
theorem text_mem_keysOf (covered : ∀ x ∈ f.vars, x ∈ vars) (subformulas : Bool) :
    f.text ∈ keysOf f vars subformulas := by
  cases alone : f.isVar with
  | false =>
    exact List.mem_append_right _ (List.mem_map_of_mem (self_mem_derivedFormulas alone subformulas))
  | true =>
    cases f with
    | var name => exact List.mem_append_left _ (covered name (List.mem_singleton_self name))
    | const | not | binary => cases alone

section Named

variable (named : ∀ x ∈ vars, spellsName x = true) (covered : ∀ x ∈ f.vars, x ∈ vars)
include named covered

theorem eq_of_text_eq_of_mem (memG : g ∈ f.subformulas) (memH : h ∈ f.subformulas)
    (same : g.text = h.text) : g = h := by
  have spelled : ∀ {g : Formula}, g ∈ f.subformulas → ∀ x ∈ g.vars, spellsName x = true :=
    fun mem x occurs => named x (Formula.covered_of_mem_subformulas covered mem x occurs)
  exact Formula.eq_of_text_eq (spelled memG) (spelled memH) same

/-- The text of a subformula stands for that subformula. -/
theorem shown_eq (mem : g ∈ f.subformulas) : shown f g.text = g := by
  obtain ⟨-, memShown, text⟩ := bearer_eq_ok mem
  exact eq_of_text_eq_of_mem named covered memShown mem text

/-- A derived formula is not called like a declared name. -/
theorem text_notMem_of_mem_derivedFormulas (mem : g ∈ derivedFormulas f subformulas) :
    g.text ∉ vars := by
  intro declared
  have shown := mem_subformulas_of_mem_derivedFormulas mem
  have spelled : ∀ x ∈ g.vars, spellsName x = true := fun x occurs =>
    named x (Formula.covered_of_mem_subformulas covered shown x occurs)
  have isVar : g = .var g.text :=
    Formula.eq_of_text_eq spelled (List.forall_mem_singleton.mpr (named _ declared)) rfl
  have notVar := isVar_of_mem_derivedFormulas mem
  rw [isVar] at notVar
  cases notVar

/-- Derived formulas have distinct texts. -/
theorem nodup_texts (subformulas : Bool) :
    ((derivedFormulas f subformulas).map Formula.text).Nodup := by
  refine List.Nodup.map_on (fun g memG h memH same => ?_) (nodup_derivedFormulas f subformulas)
  exact eq_of_text_eq_of_mem named covered (mem_subformulas_of_mem_derivedFormulas memG)
    (mem_subformulas_of_mem_derivedFormulas memH) same

theorem nodup_keysOf (nodup : vars.Nodup) (subformulas : Bool) :
    (keysOf f vars subformulas).Nodup := by
  refine List.nodup_append.mpr ⟨nodup, nodup_texts named covered subformulas, ?_⟩
  rintro x declared _ derived rfl
  obtain ⟨g, mem, rfl⟩ := List.mem_map.mp derived
  exact text_notMem_of_mem_derivedFormulas named covered mem declared

end Named

/-! ### Cells -/

/-- The cells of the derived columns under a valuation. -/
def cellsOf (f : Formula) (subformulas : Bool) (v : String → Bool) : List (String × Bool) :=
  (derivedFormulas f subformulas).map fun g => (g.text, g.eval v)

theorem map_fst_cellsOf (f : Formula) (subformulas : Bool) (v : String → Bool) :
    (cellsOf f subformulas v).map Prod.fst = (derivedFormulas f subformulas).map Formula.text := by
  rw [cellsOf, List.map_map]
  rfl

section Rows

variable (named : ∀ x ∈ vars, spellsName x = true) (covered : ∀ x ∈ e.shape.vars, x ∈ vars)
include named covered

theorem cells_eq (v : String → Bool) :
    ((derivedNodes e subformulas).map fun n =>
      (n.shape.text, (shown e.shape n.shape.text).eval v)) = cellsOf e.shape subformulas v := by
  rw [cellsOf, ← map_shape_derivedNodes, List.map_map]
  refine List.map_congr_left fun n mem => ?_
  rw [shown_eq named covered (shape_mem_of_mem_derivedNodes mem)]
  rfl

/-- The cells of a row are its inputs and then the derived cells. -/
theorem values_rowAt (n : Nat) : (rowAt e vars subformulas n).values =
    (assignment n vars).insertMany (cellsOf e.shape subformulas (valuation n vars)) := by
  have present : e.shape.text ∈
      ((assignment n vars).insertMany (cellsOf e.shape subformulas (valuation n vars))).keys := by
    rw [OrderedMap.mem_keys_insertMany, mem_keys_assignment, map_fst_cellsOf, or_comm]
    exact List.mem_append.mp (text_mem_keysOf covered subformulas)
  simp only [rowAt, cells_eq named covered, OrderedMap.insertIfAbsent, OrderedMap.contains,
    present, decide_true, if_true]

theorem get?_rowAt_input (declared : x ∈ vars) (n : Nat) :
    (rowAt e vars subformulas n).values.get? x = (assignment n vars).get? x := by
  rw [values_rowAt named covered]
  refine OrderedMap.get?_insertMany_of_notMem _ _ fun b cell => ?_
  obtain ⟨g, mem, same⟩ := List.mem_map.mp cell
  cases same
  exact text_notMem_of_mem_derivedFormulas named covered mem declared

theorem get?_rowAt_derived (mem : g ∈ derivedFormulas e.shape subformulas) (n : Nat) :
    (rowAt e vars subformulas n).values.get? g.text = some (g.eval (valuation n vars)) := by
  rw [values_rowAt named covered]
  refine OrderedMap.get?_insertMany_of_mem _ ?_ (List.mem_map_of_mem mem)
  rw [map_fst_cellsOf]
  exact nodup_texts named covered subformulas

/-- The keys of a row are those of the columns. -/
theorem keys_rowAt (nodup : vars.Nodup) (n : Nat) :
    (rowAt e vars subformulas n).values.keys = keysOf e.shape vars subformulas := by
  rw [values_rowAt named covered, OrderedMap.keys_insertMany_of_notMem, map_fst_cellsOf,
    keys_assignment nodup, keysOf]
  · rw [map_fst_cellsOf]
    exact nodup_texts named covered subformulas
  · intro cell mem
    obtain ⟨g, derived, rfl⟩ := List.mem_map.mp mem
    rw [mem_keys_assignment]
    exact text_notMem_of_mem_derivedFormulas named covered derived

end Rows

/-! ### Tables -/

/-- The columns of a table over distinct names, and the cells that the rows keep for them. -/
structure Tabulates (t : TruthTable) (f : Formula) (vars : List String) : Prop where
  nodup_keys : (t.columns.map Column.key).Nodup
  /-- The cells of a row are those of the columns. -/
  keys_eq : ∀ row ∈ t.rows, row.values.keys = t.columns.map Column.key
  /-- One column is the output. -/
  output : ∃ c, t.columns.filter Column.isOutput = [c] ∧ c.key = t.outputKey
  /-- The input columns are those of the declared names. -/
  inputs : (t.columns.filter Column.isInput).map Column.key = vars
  /-- An input cell is a binary digit of the row number. -/
  input : ∀ row ∈ t.rows, ∀ i, (less : i < vars.length) →
    row.values.get? vars[i] = some (Row.bit row.index (vars.length - 1 - i))
  /-- A derived column belongs to the one subformula with its text, and its cells are the values of
  that subformula. -/
  derived : ∀ c ∈ t.columns, c.isInput = false → ∃ g ∈ f.subformulas, g.text = c.key ∧
    (∀ h ∈ f.subformulas, h.text = c.key → h = g) ∧
    c.dependencies = g.operands.map Formula.text ∧
    ∀ row ∈ t.rows, ∃ b, row.values.get? c.key = some b ∧
      g.eval? (assignment row.index vars).get? = .ok b

/-- The derived columns of a table are those of all compound subformulas, in order. -/
structure Ordered (t : TruthTable) (f : Formula) : Prop where
  /-- The derived columns belong to the distinct compound subformulas and to a constant that is the
  whole, in the order in which they are first completed. The whole comes last. -/
  derived : ∃ gs : List Formula,
    (t.columns.filter fun c => !c.isInput).map Column.key = gs.map Formula.text ∧
    (∀ g, g ∈ gs ↔ g ∈ f.subformulas ∧ (g.operands ≠ [] ∨ g = f ∧ f.isConst = true)) ∧
    gs.Pairwise (fun g h => f.subformulas.idxOf g < f.subformulas.idxOf h) ∧
    (f.isVar = false → gs.getLast? = some f)
  /-- What a column is computed from is a constant or has a column before it. -/
  dependencies : ∀ before c after, t.columns = before ++ c :: after → ∀ d ∈ c.dependencies,
    d = "0" ∨ d = "1" ∨ d ∈ before.map Column.key

theorem getElem_mem_placed {i : Nat} (less : i < vars.length) :
    (vars[i], vars.length - 1 - i) ∈ placed vars := by
  rw [mem_placed_iff, List.getElem?_reverse (by omega)]
  rw [List.getElem?_eq_some_iff]
  exact ⟨by omega, getElem_congr_idx (by omega)⟩

theorem tabulates_tableOf (nodup : vars.Nodup) (named : ∀ x ∈ vars, spellsName x = true)
    (covered : ∀ x ∈ e.shape.vars, x ∈ vars) :
    (tableOf e vars order subformulas mode).Tabulates e.shape vars := by
  have keys : (tableOf e vars order subformulas mode).columns.map Column.key =
      keysOf e.shape vars subformulas := map_key_columnsOf e vars subformulas mode
  have distinct := nodup_keysOf named covered nodup subformulas
  have forall_rows : ∀ {P : Row → Prop}, (∀ n : Nat, P (rowAt e vars subformulas n)) →
      ∀ row ∈ (tableOf e vars order subformulas mode).rows, P row :=
    fun each => List.forall_mem_map.mpr fun n _ => each n
  refine ⟨keys ▸ distinct, forall_rows fun n => ?_, ?_, ?_, forall_rows fun n i less => ?_,
    fun c mem derived => ?_⟩
  · rw [keys]
    exact keys_rowAt named covered nodup n
  · have marked : (tableOf e vars order subformulas mode).columns.filter Column.isOutput =
        (columnsOf e vars subformulas mode).filter fun c => decide (c.key = e.shape.text) :=
      List.filter_congr fun c mem => isOutput_eq_of_mem mem
    rw [marked]
    refine exists_filter_eq_singleton (keys ▸ distinct) ?_
    rw [map_key_columnsOf]
    exact text_mem_keysOf covered subformulas
  · rw [tableOf, filter_isInput_columnsOf, List.map_map]
    exact List.map_id vars
  · rw [get?_rowAt_input named covered (List.getElem_mem less)]
    exact get?_assignment_of_placed nodup (getElem_mem_placed less)
  · obtain ⟨g, shown, text, dependencies⟩ := exists_derivedFormula_of_mem mem derived
    have memG := mem_subformulas_of_mem_derivedFormulas shown
    refine ⟨g, memG, text, fun h memH same => ?_, dependencies, forall_rows fun n => ?_⟩
    · exact eq_of_text_eq_of_mem named covered memH memG (same.trans text.symm)
    · refine ⟨_, text ▸ get?_rowAt_derived named covered shown n, ?_⟩
      exact Formula.eval?_eq_ok g fun x occurs =>
        get?_assignment (Formula.covered_of_mem_subformulas covered memG x occurs)

/-- A derived column comes behind all input columns and behind those of the nodes before its own. -/
theorem exists_node_of_cut {before after : List Column} {c : Column}
    (cut : columnsOf e vars subformulas mode = before ++ c :: after) (derived : c.isInput = false) :
    ∃ nodes n rest, derivedNodes e subformulas = nodes ++ n :: rest ∧
      nodeColumn e.shape mode n = c ∧
      before = vars.map (inputColumn e.shape) ++ nodes.map (nodeColumn e.shape mode) := by
  rw [columnsOf_eq, List.append_eq_append_iff] at cut
  obtain ⟨new, split, columns⟩ | ⟨left, inputs, columns⟩ := cut
  · obtain ⟨nodes, others, shown, rfl, tail⟩ := List.map_eq_append_iff.mp columns
    obtain ⟨n, rest, rfl, column, -⟩ := List.map_eq_cons_iff.mp tail
    exact ⟨nodes, n, rest, shown, column, split⟩
  · cases left with
    | nil =>
      obtain ⟨n, rest, shown, column, -⟩ := List.map_eq_cons_iff.mp columns.symm
      exact ⟨[], n, rest, shown, column, by simpa using inputs.symm⟩
    | cons c' left =>
      -- The column would be one of the inputs.
      obtain ⟨rfl, -⟩ := List.cons.inj columns
      have mem : c ∈ vars.map (inputColumn e.shape) := by simp [inputs]
      obtain ⟨x, -, rfl⟩ := List.mem_map.mp mem
      cases derived

theorem ordered_tableOf (covered : ∀ x ∈ e.shape.vars, x ∈ vars) :
    (tableOf e vars order true mode).Ordered e.shape where
  derived := by
    refine ⟨derivedFormulas e.shape true, ?_, fun g => mem_derivedFormulas_true,
      pairwise_derivedFormulas e.shape, getLast?_derivedFormulas⟩
    rw [map_text_derivedFormulas]
    exact filter_columnsOf e vars true mode
  dependencies before c after cut d needed := by
    cases isInput : c.isInput with
    | true =>
      obtain ⟨key, label, isOutput, source⟩ := c
      cases source with
      | input => cases needed
      | node => cases isInput
    | false =>
      obtain ⟨nodes, n, rest, shown, rfl, rfl⟩ := exists_node_of_cut cut isInput
      obtain ⟨h, operand, rfl⟩ := List.mem_map.mp needed
      have formulas : derivedFormulas e.shape true =
          nodes.map Expr.shape ++ n.shape :: rest.map Expr.shape := by
        rw [← map_shape_derivedNodes, shown, List.map_append, List.map_cons]
      rw [List.map_append, List.mem_append, List.map_map, List.map_map]
      rcases operand_kept_before covered formulas operand with zero | one | declared | earlier
      · exact Or.inl zero
      · exact Or.inr (Or.inl one)
      · exact Or.inr (Or.inr (Or.inl (List.mem_map.mpr ⟨h.text, declared, rfl⟩)))
      · obtain ⟨node, mem, rfl⟩ := List.mem_map.mp earlier
        exact Or.inr (Or.inr (Or.inr (List.mem_map.mpr ⟨node, mem, rfl⟩)))

/-- **Columns and cells are exact.** Over distinct names that are letters with digits and declare
all variables there is a table. No two of its columns share a key, the rows have a cell for each
column and no other, and the cells are the digits of the row number and the values of the
subformulas. If subformulas are shown, all compound ones have a column, and each column stands
behind those that it is computed from. -/
theorem columns_exact (e : Expr) (vars : List String) (order : RowOrder) (subformulas : Bool)
    (mode : NegationMode) (nodup : vars.Nodup) (named : ∀ x ∈ vars, spellsName x = true)
    (covered : ∀ x ∈ e.shape.vars, x ∈ vars) :
    ∃ t, build e vars order subformulas mode = .ok t ∧ t.Tabulates e.shape vars ∧
      (subformulas = true → t.Ordered e.shape) := by
  refine ⟨_, build_eq_ok covered, tabulates_tableOf nodup named covered, ?_⟩
  rintro rfl
  exact ordered_tableOf covered

/-- The expression `((A ∧ B)) ∨ ¬(A ∧ B) → 1`, whose conjunctions are one formula. -/
def bracketedTwice : Expr :=
  .binary {} .implies
    (.binary {} .or (.binary ⟨2, 2⟩ .and (.var ⟨0, 0⟩ "A") (.var ⟨1, 0⟩ "B"))
      (.not {} (.binary ⟨5, 1⟩ .and (.var {} "A") (.var {} "B"))))
    (.const {} true)

theorem columns_exact_bracketedTwice :
    (∃ t, build bracketedTwice ["B", "A", "C3"] .descending true .simplify = .ok t ∧
      t.Tabulates bracketedTwice.shape ["B", "A", "C3"] ∧ t.Ordered bracketedTwice.shape) ∧
    ∃ t, build bracketedTwice ["B", "A", "C3"] .ascending false .preserve = .ok t ∧
      t.Tabulates bracketedTwice.shape ["B", "A", "C3"] := by
  obtain ⟨t, built, tabulates, ordered⟩ := columns_exact bracketedTwice ["B", "A", "C3"] .descending
    true .simplify (by decide) (by decide) (by decide)
  obtain ⟨t', built', tabulates', -⟩ := columns_exact bracketedTwice ["B", "A", "C3"] .ascending
    false .preserve (by decide) (by decide) (by decide)
  exact ⟨⟨t, built, tabulates, ordered rfl⟩, t', built', tabulates'⟩

end TruthTable

end Sentential
