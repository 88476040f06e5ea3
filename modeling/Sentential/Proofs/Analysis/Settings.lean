import Sentential.Proofs.Analysis.Agreement
import Sentential.Proofs.Karnaugh.Minimization
import Sentential.Proofs.Table.Columns

/-!
# Settings only change what is shown

The settings reach far into an analysis: the order of the rows is the order in which the map reads
them, hidden columns leave cells out of the rows, and labels are rewritten. None of that reaches a
result. The map and the classification look only at the output of each row number; the output is
always there, under a key that does not depend on the settings; and nothing is looked up by a label.

## Main definitions

* `Column.unlabelled` — a column without its label
* `Analysis.Agrees` — two analyses with the same results
* `Analysis.ShownAs` — how the tables of two analyses differ by their settings

## Main results

* `TruthTable.columnsOf_false_eq_filter` — which columns are hidden
* `Karnaugh.map?_tableOf` — the map of a table does not depend on how the table is shown
* `Analysis.settings_only_display` — two settings give the same results or the same error
-/

namespace Sentential

open Token (spellsName)

variable {e : Expr} {vars : List String} {order order' : RowOrder} {subformulas : Bool}
variable {mode mode' : NegationMode}

/-! ### Columns -/

/-- The column without its label. -/
def Column.unlabelled (c : Column) : Column := { c with label := "" }

namespace TruthTable

/-- The mode decides about labels only. -/
theorem map_unlabelled_columnsOf (e : Expr) (vars : List String) (subformulas : Bool)
    (mode mode' : NegationMode) :
    (columnsOf e vars subformulas mode).map Column.unlabelled =
      (columnsOf e vars subformulas mode').map Column.unlabelled := by
  rw [columnsOf_eq, columnsOf_eq, List.map_append, List.map_append, List.map_map, List.map_map,
    List.map_map]
  rfl

/-- The nodes below the root are those of the operands, and none of them is the whole formula. -/
theorem exists_postorder_eq (e : Expr) :
    ∃ below, e.postorder = below ++ [e] ∧ ∀ n ∈ below, n.shape ≠ e.shape := by
  obtain ⟨below, cut⟩ : ∃ below, e.postorder = below ++ [e] := by
    cases e with
    | var | const => exact ⟨[], rfl⟩
    | not | binary => exact ⟨_, rfl⟩
  refine ⟨below, cut, fun n mem same => e.shape.notMem_subformulas_of_operands ?_⟩
  have shapes := Expr.map_shape_postorder e
  rw [cut, Formula.subformulas_eq, List.map_append] at shapes
  rw [← List.append_inj_left' shapes rfl, ← same]
  exact List.mem_map_of_mem mem

/-- Without subformulas, the whole is the only node that is left. -/
theorem derivedNodes_false_eq_filter (named : ∀ x ∈ e.shape.vars, spellsName x = true) :
    derivedNodes e false =
      (derivedNodes e true).filter fun n => n.shape.text == e.shape.text := by
  have compound : ∀ {p : Expr → Bool}, p e = true →
      (∀ n ∈ e.postorder.filter p, n.shape ∈ e.shape.subformulas) →
      (firstOccurrences Expr.shape (e.postorder.filter p)).filter
        (fun n => n.shape.text == e.shape.text) = [e] := by
    intro p holds among
    obtain ⟨below, cut, other⟩ := exists_postorder_eq e
    have split : e.postorder.filter p = below.filter p ++ [e] := by
      rw [cut, List.filter_append, List.filter_cons_of_pos holds, List.filter_nil]
    rw [split] at among ⊢
    have new : e.shape ∉ (below.filter p).map Expr.shape := by
      intro mem
      obtain ⟨n, mem, same⟩ := List.mem_map.mp mem
      exact other n (List.mem_of_mem_filter mem) same
    rw [firstOccurrences_concat_of_notMem new, List.filter_append, List.filter_eq_nil_iff.mpr]
    · simp
    · intro n mem same
      have keyed := (mem_firstOccurrences_key Expr.shape _ _).mp (List.mem_map_of_mem mem)
      obtain ⟨n', mem', shape⟩ := List.mem_map.mp keyed
      -- Formulas over such names with one text are equal, but no node below is the whole.
      refine new (List.mem_map.mpr ⟨n', mem', ?_⟩)
      rw [shape]
      refine eq_of_text_eq_of_mem named (fun _ => id) ?_ e.shape.mem_subformulas_self
        (beq_iff_eq.mp same)
      rw [← shape]
      exact among n' (List.mem_append_left _ mem')
  have among : ∀ {p : Expr → Bool}, ∀ n ∈ e.postorder.filter p,
      n.shape ∈ e.shape.subformulas := by
    intro p n mem
    rw [← Expr.map_shape_postorder]
    exact List.mem_map_of_mem (List.mem_of_mem_filter mem)
  cases e with
  | var => rfl
  | const => simp [derivedNodes, Expr.shape, Formula.isVar]
  | not | binary => exact (compound rfl among).symm

/-- Without subformulas, the inputs and the column of the whole are left. -/
theorem columnsOf_false_eq_filter (named : ∀ x ∈ e.shape.vars, spellsName x = true)
    (vars : List String) (mode : NegationMode) :
    columnsOf e vars false mode =
      (columnsOf e vars true mode).filter fun c => c.isInput || c.key == e.shape.text := by
  rw [columnsOf_eq, columnsOf_eq, List.filter_append, List.filter_eq_self.mpr, List.filter_map,
    derivedNodes_false_eq_filter named]
  · rfl
  · exact List.forall_mem_map.mpr fun _ _ => rfl

/-- The derived column under the key of the whole is that of the root. -/
theorem eq_nodeColumn_of_key_eq (named : ∀ x ∈ e.shape.vars, spellsName x = true) {c : Column}
    (mem : c ∈ columnsOf e vars subformulas mode) (derived : c.isInput = false)
    (key : c.key = e.shape.text) : c = nodeColumn e.shape mode e := by
  have whole : ∀ n ∈ derivedNodes e subformulas, n.shape.text = e.shape.text → n = e := by
    intro n mem same
    have left : n ∈ derivedNodes e false := by
      cases subformulas with
      | false => exact mem
      | true =>
        rw [derivedNodes_false_eq_filter named]
        exact List.mem_filter.mpr ⟨mem, beq_iff_eq.mpr same⟩
    unfold derivedNodes at left
    simp only [Bool.false_eq_true, if_false] at left
    split at left
    · cases left
    · exact List.mem_singleton.mp left
  rw [columnsOf_eq, List.mem_append, List.mem_map, List.mem_map] at mem
  rcases mem with ⟨x, -, rfl⟩ | ⟨n, mem, rfl⟩
  · cases derived
  · rw [whole n mem key]

/-! ### Rows -/

theorem rows_tableOf_eq (e : Expr) (vars : List String) (order order' : RowOrder)
    (subformulas : Bool) (mode mode' : NegationMode) :
    (tableOf e vars order' subformulas mode').rows =
      if order = order' then (tableOf e vars order subformulas mode).rows
      else (tableOf e vars order subformulas mode).rows.reverse := by
  cases order <;> cases order' <;> simp [tableOf, indices]

end TruthTable

/-! ### Maps -/

namespace Karnaugh

open TruthTable (tableOf valuation)

/-- A map is made from the values of the row numbers. -/
theorem map?_congr {rows rows' : List Row} {key : String} (vars : List String)
    (same : valueAt rows key = valueAt rows' key) : map? vars rows key = map? vars rows' key := by
  have maps : ∀ rowLabels columnLabels, mapOf vars rows key rowLabels columnLabels =
      mapOf vars rows' key rowLabels columnLabels := by
    intro rowLabels columnLabels
    simp only [mapOf, same]
  rw [map?, map?]
  split
  · split
    · rw [maps]
    · rfl
  · rfl

/-- The value of a row number is that of the formula; other numbers have no row. -/
theorem valueAt_tableOf (covered : ∀ x ∈ e.shape.vars, x ∈ vars) (order : RowOrder)
    (subformulas : Bool) (mode : NegationMode) :
    valueAt (tableOf e vars order subformulas mode).rows e.shape.text = fun i =>
      decide (0 ≤ i ∧ i < 2 ^ vars.length) && e.shape.eval (valuation i vars) := by
  funext i
  have decides : (tableOf e vars order subformulas mode).Decides e.shape vars order :=
    TruthTable.decides_tableOf covered
  by_cases inside : 0 ≤ i ∧ i < 2 ^ vars.length
  · obtain ⟨m, rfl⟩ := Int.eq_ofNat_of_zero_le inside.1
    rw [decide_eq_true inside, Bool.true_and]
    exact valueAt_of_decides covered decides (by exact_mod_cast inside.2)
  · rw [decide_eq_false inside, Bool.false_and, valueAt, List.find?_eq_none.mpr]
    · rfl
    · intro row mem number
      obtain ⟨n, listed, rfl⟩ := List.mem_map.mp (List.mem_reverse.mp mem)
      have less := TruthTable.mem_indices.mp listed
      have same : (n : Int) = i := beq_iff_eq.mp number
      exact inside ⟨by omega, by rw [← same]; exact_mod_cast less⟩

/-- The map of a table depends on the formula and the names only. -/
theorem map?_tableOf (covered : ∀ x ∈ e.shape.vars, x ∈ vars) (order order' : RowOrder)
    (subformulas subformulas' : Bool) (mode mode' : NegationMode) :
    map? vars (tableOf e vars order subformulas mode).rows e.shape.text =
      map? vars (tableOf e vars order' subformulas' mode').rows e.shape.text := by
  refine map?_congr vars ?_
  rw [valueAt_tableOf covered, valueAt_tableOf covered]

end Karnaugh

/-! ### Analyses -/

namespace Analysis

open TruthTable (tableOf nodeColumn)

variable {a a' : Analysis} {s s' : Settings} {declared : List String} {text : Option String}
variable {target : Option Target} {report : Option Report} {limits : Limits}

/-- Two analyses have the same results. -/
structure Agrees (a a' : Analysis) : Prop where
  /-- The expression is the same, and with it what stands at its root. -/
  expr_eq : a'.expr = a.expr
  vars_eq : a'.vars = a.vars
  classification_eq : a'.table.classification = a.table.classification
  outputKey_eq : a'.table.outputKey = a.table.outputKey
  karnaugh_eq : a'.karnaugh = a.karnaugh
  shortcut_eq : a'.shortcut = a.shortcut
  complexity_eq : a'.complexity = a.complexity
  report_eq : a'.report = a.report
  /-- There are rows with the same numbers. -/
  indices : ∀ i, i ∈ a'.table.rows.map Row.index ↔ i ∈ a.table.rows.map Row.index
  /-- Rows with one number have one output. -/
  outputs : ∀ row ∈ a.table.rows, ∀ row' ∈ a'.table.rows, row'.index = row.index →
    ∃ b, row.values.get? a.table.outputKey = some b ∧
      row'.values.get? a'.table.outputKey = some b

/-- How the tables of two analyses differ by their settings. -/
structure ShownAs (a : Analysis) (s : Settings) (a' : Analysis) (s' : Settings) : Prop where
  /-- With the same subformulas shown, the rows are equal, and in reverse if the orders differ. -/
  rows_eq : s.subformulas = s'.subformulas →
    a'.table.rows = if s.order = s'.order then a.table.rows else a.table.rows.reverse
  /-- The columns are then equal except for the labels. -/
  columns_eq : s.subformulas = s'.subformulas →
    a'.table.columns.map Column.unlabelled = a.table.columns.map Column.unlabelled
  /-- Labels are equal if the modes are. -/
  labels_eq : s.subformulas = s'.subformulas → s.negation = s'.negation →
    a'.table.columns = a.table.columns
  /-- If subformulas are no longer shown, the derived columns that are left out are exactly those
  that do not have the key of the whole. -/
  hidden_eq : s.subformulas = true → s'.subformulas = false → s.negation = s'.negation →
    a'.table.columns = a.table.columns.filter fun c => c.isInput || c.key == a.table.outputKey
  /-- The only derived column with the key of the whole is that of the root. -/
  root_eq : ∀ c ∈ a.table.columns, c.isInput = false → c.key = a.table.outputKey →
    c = nodeColumn a.expr.shape s.negation a.expr

/-- The report of an attempt, if one is asked for, after the variables were checked. -/
def attempted (e : Expr) (vars : List String) (target : Option Target) (limits : Limits) :
    Except AnalysisError (Option Report) := do
  diagnose (TruthTable.requireDeclared e.shape vars)
  match target with
  | none => return none
  | some goal => some <$> attemptProof e vars goal limits

/-- Settings come in when nothing can fail any more. -/
theorem ofExpr_eq_map (e : Expr) (vars : List String) (settings : Settings)
    (target : Option Target) (limits : Limits) : ofExpr e vars settings target limits =
      (attempted e vars target limits).map (ofParts e vars settings) := by
  by_cases missing : TruthTable.undeclared e.shape vars = []
  · have covered := TruthTable.undeclared_eq_nil_iff.mp missing
    simp only [ofExpr, attempted, TruthTable.build_eq_ok covered,
      TruthTable.requireDeclared_eq_ok_iff.mpr covered]
    cases target with
    | none => rfl
    | some goal =>
      simp only [diagnose, bind, Except.bind, Functor.map, Except.map]
      cases attemptProof e vars goal limits <;> rfl
  · rw [(gated_ofExpr limits vars settings target).refuses e missing]
    simp only [attempted, TruthTable.requireDeclared_eq_error missing]
    rfl

theorem run_eq_bind (text : Option String) (declared : List String) (settings : Settings)
    (target : Option Target) (limits : Limits) : run text declared settings target limits =
      diagnose (readExpr text limits) >>= fun e =>
        (attempted e (declaredNames declared) target limits).map
          (ofParts e (declaredNames declared) settings) := by
  rw [run]
  exact congrArg _ (funext fun e => ofExpr_eq_map e _ settings target limits)

/-- An error does not depend on the settings. -/
theorem run_eq_error_iff {x : AnalysisError} : run text declared s target limits = .error x ↔
    run text declared s' target limits = .error x := by
  rw [run_eq_bind, run_eq_bind]
  cases diagnose (readExpr text limits) with
  | error d => rfl
  | ok e =>
    simp only [bind, Except.bind]
    cases attempted e (declaredNames declared) target limits <;> simp [Except.map]

theorem agrees_ofParts (covered : ∀ x ∈ e.shape.vars, x ∈ vars) (s s' : Settings)
    (report : Option Report) : (ofParts e vars s report).Agrees (ofParts e vars s' report) := by
  have decides : ∀ s : Settings, (ofParts e vars s report).table.Decides e.shape vars s.order :=
    fun s => TruthTable.decides_tableOf covered
  have numbered : ∀ s : Settings,
      TruthTable.Numbered (ofParts e vars s report).table.rows vars.length :=
    fun s => (decides s).numbered
  refine
    { expr_eq := rfl, vars_eq := rfl, outputKey_eq := rfl, shortcut_eq := rfl, report_eq := rfl
      classification_eq := ?_
      karnaugh_eq := Karnaugh.map?_tableOf covered _ _ _ _ _ _
      complexity_eq := ?_
      indices := fun i => (numbered s').mem_iff.trans (numbered s).mem_iff.symm
      outputs := fun row mem row' mem' number => ?_ }
  · -- The classification says which values the formula takes, and these have no order.
    have classified : (TruthTable.tableOf e vars s.order s.subformulas s.negation).classification =
      (ofParts e vars s report).table.classification := rfl
    exact (TruthTable.classification_tableOf_iff covered).mpr
      ((TruthTable.classification_tableOf_iff covered).mp classified)
  · exact congrArg (Complexity.of e.shape · vars)
      ((decides s').length_rows.trans (decides s).length_rows.symm)
  · obtain ⟨b, cell, value⟩ := (decides s).value row mem
    obtain ⟨b', cell', value'⟩ := (decides s').value row' mem'
    rw [number, value, Except.ok.injEq] at value'
    exact ⟨b, cell, value' ▸ cell'⟩

theorem shownAs_ofParts (named : ∀ x ∈ e.shape.vars, spellsName x = true) (vars : List String)
    (s s' : Settings) (report : Option Report) :
    (ofParts e vars s report).ShownAs s (ofParts e vars s' report) s' where
  rows_eq same := by
    simp only [ofParts, ← same]
    exact TruthTable.rows_tableOf_eq e vars s.order s'.order _ _ _
  columns_eq same := by
    simp only [ofParts, ← same]
    exact TruthTable.map_unlabelled_columnsOf e vars _ _ _
  labels_eq same modes := by
    simp only [ofParts, ← same, ← modes]
    rfl
  hidden_eq shown hidden modes := by
    simp only [ofParts, shown, hidden, ← modes]
    exact TruthTable.columnsOf_false_eq_filter named vars s.negation
  root_eq c mem derived key := TruthTable.eq_nodeColumn_of_key_eq named mem derived key

/-- **Settings are presentation only.** Whatever the limits and the settings, the analysis of a text
fails with the same error, or it succeeds with the same results. Its table has the same rows, in
this or in the reverse order, and the same columns, whose labels may differ, as long as the same
subformulas are shown; and if they are not, only the derived columns below the root are missing. -/
theorem settings_only_display (limits : Limits) (text : Option String) (declared : List String)
    (target : Option Target) (s s' : Settings) :
    (∀ x, run text declared s target limits = .error x ↔
      run text declared s' target limits = .error x) ∧
    ∀ a, run text declared s target limits = .ok a →
      ∃ a', run text declared s' target limits = .ok a' ∧ a.Agrees a' ∧ a.ShownAs s a' s' := by
  refine ⟨fun x => run_eq_error_iff, fun a analysed => ?_⟩
  obtain ⟨e, read, analysed⟩ := run_eq_ok_iff.mp analysed
  obtain ⟨covered, report, outcome, rfl⟩ := ofExpr_eq_ok_iff.mp analysed
  refine ⟨ofParts e (declaredNames declared) s' report, ?_, agrees_ofParts covered s s' report,
    shownAs_ofParts (spellsName_of_readExpr read) _ s s' report⟩
  exact run_eq_ok_iff.mpr ⟨e, read, ofExpr_eq_ok_iff.mpr ⟨covered, report, outcome, rfl⟩⟩

theorem settings_only_display_conjunction : ∃ a a',
    run (some "~~p & (q -> p)") ["q", "p"] {} none = .ok a ∧
      run (some "~~p & (q -> p)") ["q", "p"]
        { negation := .simplify, order := .descending, subformulas := false } none = .ok a' ∧
      a.table.columns.length = 6 ∧ a'.table.columns.length = 3 ∧
      a'.karnaugh = a.karnaugh ∧ a'.table.classification = a.table.classification ∧
      ∀ row ∈ a.table.rows, ∀ row' ∈ a'.table.rows, row'.index = row.index →
        row'.values.get? a'.table.outputKey = row.values.get? a.table.outputKey := by
  have parsed : (readExpr (some "~~p & (q -> p)")).toOption.map Expr.shape =
      some (.binary .and (.not (.not (.var "P"))) (.binary .implies (.var "Q") (.var "P"))) := by
    decide +kernel
  obtain ⟨e, read, shape⟩ := exists_readExpr_eq parsed
  have names : declaredNames ["q", "p"] = ["Q", "P"] := by decide +kernel
  have analysed := run_eq_ofParts read names (by rw [shape]; decide)
  obtain ⟨-, same⟩ := settings_only_display .usual (some "~~p & (q -> p)") ["q", "p"] none {}
    { negation := .simplify, order := .descending, subformulas := false }
  obtain ⟨a', analysed', agrees, -⟩ := same _ (analysed {})
  have columns : ∀ s, (ofParts e ["Q", "P"] s none).table.columns.length =
      (TruthTable.keysOf e.shape ["Q", "P"] s.subformulas).length := fun s => by
    rw [← TruthTable.map_key_columnsOf e _ _ s.negation, List.length_map]
    rfl
  refine ⟨_, a', analysed {}, analysed', ?_, ?_, agrees.karnaugh_eq, agrees.classification_eq,
    fun row mem row' mem' number => ?_⟩
  · rw [columns, shape]
    decide
  · rw [← Except.ok.inj ((analysed _).symm.trans analysed'), columns, shape]
    decide
  · obtain ⟨b, output, output'⟩ := agrees.outputs row mem row' mem' number
    rw [output, output']

end Analysis

end Sentential
