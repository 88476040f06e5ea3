import Sentential.Expr.Basic
import Sentential.Formula.Evaluation
import Sentential.Proofs.Formula.Subformulas

/-!
# Evaluation through a memo

A memo keeps the value of every formula that was evaluated, so a formula that occurs twice is
evaluated once. It may also be begun with entries that come from elsewhere, and these may lack the
subformulas of what they record. As long as their values are right, nothing is gained or lost: the
evaluation ends with the same value, or misses the same variable, as the one without a memo, and the
entries that were there stay in front, unchanged.

A memo that was begun empty lists the distinct nodes of an expression in the order in which they are
first completed.

## Main definitions

* `Memo.Sound` — every recorded value is the value of its formula
* `Memo.Closed` — a formula is recorded together with its subformulas
* `Memo.Records`, `Memo.Ends` — what an evaluation makes of a memo
* `Memo.Lists` — the memo of an expression

## Main results

* `ends_evalInto` — evaluation into a sound memo ends as evaluation does
* `memo_agrees_with_evaluation` — the same for expressions, with the entries of the memo
-/

namespace Sentential.Formula

variable {f g h : Formula} {σ : String → Option Bool} {memo memo' : Memo} {b : Bool}
  {d : Diagnostic} {e : Expr}

namespace Memo

/-- Every recorded value is the value of its formula. -/
def Sound (memo : Memo) (σ : String → Option Bool) : Prop :=
  ∀ g b, memo.get? g = some b → g.eval? σ = .ok b

/-- A formula is recorded together with its subformulas. -/
def Closed (memo : Memo) : Prop := ∀ g ∈ memo.keys, ∀ h ∈ g.subformulas, h ∈ memo.keys

theorem sound_empty (σ : String → Option Bool) : Sound .empty σ :=
  fun _ _ found => by simp at found

theorem closed_empty : Closed .empty := fun _ mem => by simp at mem

theorem Sound.insert (sound : memo.Sound σ) (value : f.eval? σ = .ok b) :
    Sound (OrderedMap.insert memo f b) σ := by
  intro g c found
  rw [OrderedMap.get?_insert] at found
  split at found
  · rename_i same
    rw [← same, value, Option.some.inj found]
  · exact sound g c found

theorem Sound.get?_eq_some (sound : memo.Sound σ) (value : f.eval? σ = .ok b)
    (mem : f ∈ memo.keys) : memo.get? f = some b := by
  rw [OrderedMap.mem_keys_iff] at mem
  obtain ⟨c, found⟩ := Option.isSome_iff_exists.mp mem
  rw [found, Except.ok.inj (value.symm.trans (sound f c found))]

theorem Sound.value_eq_ok (sound : memo.Sound σ) (value : f.eval? σ = .ok b)
    (mem : f ∈ memo.keys) : memo.value f = .ok b := by
  rw [Memo.value, sound.get?_eq_some value mem]

/-- The second memo records the formula, has only right values, and begins with the entries of the
first. If that one is closed, the distinct subformulas that it lacks follow in post-order. -/
structure Records (memo memo' : Memo) (f : Formula) (σ : String → Option Bool) : Prop where
  sound : memo'.Sound σ
  recorded : f ∈ memo'.keys
  kept : memo.entries <+: memo'.entries
  keys_eq : memo.Closed → memo'.keys = distinct (memo.keys ++ f.subformulas)

theorem Records.closed (records : memo.Records memo' f σ) (closed : memo.Closed) :
    memo'.Closed := by
  intro g mem h occurs
  rw [records.keys_eq closed, mem_distinct, List.mem_append] at mem ⊢
  rcases mem with old | new
  · exact Or.inl (closed g old h occurs)
  · exact Or.inr (subformulas_subset_of_mem new occurs)

/-- A memo that has the formula is left as it is. -/
theorem Sound.records_self (sound : memo.Sound σ) (mem : f ∈ memo.keys) :
    memo.Records memo f σ where
  sound := sound
  recorded := mem
  kept := List.prefix_refl _
  keys_eq closed := (distinct_append_of_subset memo.keys_nodup (closed f mem)).symm

/-- A new formula is recorded behind its operands. -/
theorem Sound.records_insert (sound : memo'.Sound σ) (value : f.eval? σ = .ok b)
    (fresh : f ∉ memo.keys) (kept : memo.entries <+: memo'.entries)
    (keys : memo.Closed → memo'.keys = distinct (memo.keys ++ f.operands.flatMap subformulas)) :
    memo.Records (OrderedMap.insert memo' f b) f σ where
  sound := sound.insert value
  recorded := (OrderedMap.mem_keys_insert memo' f f b).mpr (Or.inl rfl)
  kept := by
    refine kept.trans ?_
    by_cases mem : f ∈ memo'.keys
    · have same := OrderedMap.insert_of_get?_eq_some memo' (sound.get?_eq_some value mem)
      exact same.symm ▸ List.prefix_refl _
    · rw [OrderedMap.entries_insert_of_notMem memo' b mem]
      exact List.prefix_append _ _
  keys_eq closed := by
    have absent : f ∉ memo.keys ++ f.operands.flatMap subformulas :=
      List.not_mem_append fresh (notMem_subformulas_of_operands f)
    rw [OrderedMap.keys_insert, keys closed, if_neg (by rwa [mem_distinct]),
      ← distinct_concat_of_notMem absent, subformulas_eq f, List.append_assoc]

theorem Sound.records_leaf (sound : memo.Sound σ) (value : f.eval? σ = .ok b)
    (fresh : f ∉ memo.keys) (leaf : f.operands = []) :
    memo.Records (OrderedMap.insert memo f b) f σ := by
  refine sound.records_insert value fresh (List.prefix_refl _) fun _ => ?_
  rw [leaf, List.flatMap_nil, List.append_nil, distinct_of_nodup memo.keys_nodup]

/-- Both evaluations miss the same variable, or there is a value and the memo records it. -/
inductive Ends (memo : Memo) (f : Formula) (σ : String → Option Bool) :
    Except Diagnostic Bool → Except Diagnostic Memo → Prop
  | fails (d : Diagnostic) : Ends memo f σ (.error d) (.error d)
  | records (b : Bool) {memo' : Memo} (records : memo.Records memo' f σ) :
      Ends memo f σ (.ok b) (.ok memo')

end Memo

/-! ### Evaluation into a sound memo -/

/-- A formula that is recorded already is not evaluated again. -/
theorem ends_of_fresh (sound : memo.Sound σ)
    (fresh : f ∉ memo.keys → memo.Ends f σ (f.eval? σ) (f.evalInto σ memo)) :
    memo.Ends f σ (f.eval? σ) (f.evalInto σ memo) := by
  by_cases mem : f ∈ memo.keys
  · obtain ⟨b, found⟩ := Option.isSome_iff_exists.mp ((OrderedMap.mem_keys_iff memo f).mp mem)
    rw [sound f b found, evalInto.eq_def, OrderedMap.contains, if_pos (decide_eq_true mem)]
    exact .records b (sound.records_self mem)
  · exact fresh mem

/-- Evaluation into a sound memo ends as evaluation does. -/
theorem ends_evalInto (f : Formula) (sound : memo.Sound σ) :
    memo.Ends f σ (f.eval? σ) (f.evalInto σ memo) := by
  -- No look-up of an operand can fail, for the operand was recorded just before.
  induction f generalizing memo with
  | var name =>
    refine ends_of_fresh sound fun fresh => ?_
    cases bound : σ name with
    | none => simpa [evalInto, eval?, OrderedMap.contains, fresh, bound] using .fails _
    | some b =>
      have value : (var name).eval? σ = .ok b := by rw [eval?, bound]
      simpa [value, evalInto, OrderedMap.contains, fresh, bound] using
        .records b (sound.records_leaf value fresh rfl)
  | const value =>
    refine ends_of_fresh sound fun fresh => ?_
    simpa [evalInto, eval?, OrderedMap.contains, fresh] using
      .records value (sound.records_leaf rfl fresh rfl)
  | not g ih =>
    refine ends_of_fresh sound fun fresh => ?_
    have operand := ih sound
    simp only [evalInto, OrderedMap.contains, fresh, eval?]
    generalize valueG : g.eval? σ = value, g.evalInto σ memo = evaluated at operand ⊢
    cases operand with
    | fails d => exact .fails d
    | @records b memoG records =>
      have whole : (not g).eval? σ = .ok (!b) := by rw [eval?, valueG]
      have found := records.sound.value_eq_ok valueG records.recorded
      simp only [bind, Except.bind, found]
      refine .records _ (records.sound.records_insert whole fresh records.kept fun closed => ?_)
      simpa [operands] using records.keys_eq closed
  | binary op l r ihl ihr =>
    refine ends_of_fresh sound fun fresh => ?_
    have left := ihl sound
    simp only [evalInto, OrderedMap.contains, fresh, eval?]
    generalize valueL : l.eval? σ = value, l.evalInto σ memo = evaluated at left ⊢
    cases left with
    | fails d => exact .fails d
    | @records a memoL recordsL =>
      have right := ihr recordsL.sound
      simp only [bind, Except.bind]
      generalize valueR : r.eval? σ = value, r.evalInto σ memoL = evaluated at right ⊢
      cases right with
      | fails d => exact .fails d
      | @records b memoR recordsR =>
        have whole : (binary op l r).eval? σ = .ok (op.apply a b) := by rw [eval?, valueL, valueR]
        -- The left operand is still there after the right one was recorded.
        have kept : l ∈ memoR.keys := (recordsR.kept.map Prod.fst).subset recordsL.recorded
        have foundL := recordsR.sound.value_eq_ok valueL kept
        have foundR := recordsR.sound.value_eq_ok valueR recordsR.recorded
        simp only [foundL, foundR]
        refine .records _ (recordsR.sound.records_insert whole fresh
          (recordsL.kept.trans recordsR.kept) fun closed => ?_)
        rw [recordsR.keys_eq (recordsL.closed closed), recordsL.keys_eq closed,
          distinct_distinct_append, List.append_assoc]
        simp [operands]

theorem evalInto_eq_error_iff (f : Formula) (sound : memo.Sound σ) :
    f.evalInto σ memo = .error d ↔ f.eval? σ = .error d := by
  have ends := ends_evalInto f sound
  generalize f.eval? σ = value, f.evalInto σ memo = evaluated at ends ⊢
  cases ends with
  | fails d' => simp
  | records b records => simp

theorem exists_evalInto_eq_ok (sound : memo.Sound σ) (value : f.eval? σ = .ok b) :
    ∃ memo', f.evalInto σ memo = .ok memo' ∧ memo.Records memo' f σ := by
  have ends := ends_evalInto f sound
  rw [value] at ends
  generalize f.evalInto σ memo = evaluated at ends ⊢
  cases ends with
  | records b records => exact ⟨_, rfl, records⟩

theorem records_of_evalInto (sound : memo.Sound σ) (evaluated : f.evalInto σ memo = .ok memo') :
    memo.Records memo' f σ := by
  have ends := ends_evalInto f sound
  rw [evaluated] at ends
  generalize f.eval? σ = value at ends
  cases ends with
  | records b records => exact records

/-! ### The memo of an expression -/

/-- A subformula of a formula with a value has one too. -/
theorem exists_eval?_of_mem_subformulas (value : f.eval? σ = .ok b) (mem : g ∈ f.subformulas) :
    ∃ c, g.eval? σ = .ok c := by
  refine ⟨g.eval fun x => (σ x).getD false, eval?_eq_ok g fun x occurs => ?_⟩
  have bound := isSome_of_eval? value x (vars_subset_of_mem_subformulas mem occurs)
  obtain ⟨c, found⟩ := Option.isSome_iff_exists.mp bound
  rw [found, Option.getD_some]

/-- The memo lists the distinct nodes of an expression where they are first completed, operands in
front of what they belong to, each with its value. -/
structure Memo.Lists (memo : Memo) (e : Expr) (σ : String → Option Bool) : Prop where
  keys_eq : memo.keys = distinct (e.postorder.map Expr.shape)
  operandsFirst : OperandsFirst memo.keys
  value : ∀ n ∈ e.postorder, ∃ b, n.shape.eval? σ = .ok b ∧ memo.get? n.shape = some b

theorem Memo.Records.lists (records : Memo.Records .empty memo e.shape σ)
    (value : e.shape.eval? σ = .ok b) : memo.Lists e σ where
  keys_eq := by
    rw [records.keys_eq closed_empty, Expr.map_shape_postorder]
    rfl
  operandsFirst := by
    rw [records.keys_eq closed_empty]
    exact (operandsFirst_subformulas e.shape).distinct
  value n mem := by
    have occurs : n.shape ∈ e.shape.subformulas := by
      rw [← Expr.map_shape_postorder]
      exact List.mem_map_of_mem mem
    obtain ⟨c, valueN⟩ := exists_eval?_of_mem_subformulas value occurs
    have known := records.closed closed_empty e.shape records.recorded n.shape occurs
    exact ⟨c, valueN, records.sound.get?_eq_some valueN known⟩

/-- **A memo changes nothing about evaluation.** Evaluation into an empty memo misses the variables
that evaluation misses; if it misses none, it returns a memo that lists the distinct nodes of the
expression with their values. From any memo whose values are right it fails as evaluation does, and
what it returns has the old entries in front, has only right values, and records the expression. -/
theorem memo_agrees_with_evaluation (e : Expr) (σ : String → Option Bool) :
    (∀ names, e.shape.evalInto σ .empty = .error (.undeclared names) ↔
      e.shape.eval? σ = .error (.undeclared names)) ∧
    ((∀ names, e.shape.eval? σ ≠ .error (.undeclared names)) →
      ∃ memo : Memo, e.shape.evalInto σ .empty = .ok memo ∧ memo.Lists e σ) ∧
    ∀ memo : Memo, memo.Sound σ →
      (∀ d, e.shape.evalInto σ memo = .error d ↔ e.shape.eval? σ = .error d) ∧
      ∀ memo' : Memo, e.shape.evalInto σ memo = .ok memo' →
        memo.entries <+: memo'.entries ∧ memo'.Sound σ ∧ e.shape ∈ memo'.keys := by
  refine ⟨fun names => evalInto_eq_error_iff e.shape (Memo.sound_empty σ), fun bound => ?_,
    fun memo sound => ⟨fun d => evalInto_eq_error_iff e.shape sound, fun memo' evaluated => ?_⟩⟩
  · obtain ⟨b, value⟩ : ∃ b, e.shape.eval? σ = .ok b := by
      rw [eval?_eq] at bound ⊢
      -- The only failure of evaluation is a variable that is unbound.
      cases missing : e.shape.vars.find? fun x => (σ x).isNone with
      | some x => exact absurd (by rw [missing]) (bound [x])
      | none => exact ⟨_, rfl⟩
    obtain ⟨memo, evaluated, records⟩ := exists_evalInto_eq_ok (Memo.sound_empty σ) value
    exact ⟨memo, evaluated, records.lists value⟩
  · have records := records_of_evalInto sound evaluated
    exact ⟨records.kept, records.sound, records.recorded⟩

/-- The expression `A ∧ B ∨ (A ∧ B)`. -/
def conjunctionTwice : Expr :=
  .binary {} .or (.binary {} .and (.var {} "A") (.var {} "B"))
    (.binary ⟨-1, 1⟩ .and (.var {} "A") (.var {} "B"))

/-- From a memo that knows the conjunction, but not its sides, these are not evaluated. -/
theorem memo_agrees_with_evaluation_conjunctionTwice :
    let σ : String → Option Bool := fun x => if x = "C" then none else some (x == "A")
    let memo : Memo := .ofList [(.binary .and (.var "A") (.var "B"), false)]
    (∀ names, conjunctionTwice.shape.eval? σ ≠ .error (.undeclared names)) ∧
      (∃ memo : Memo, conjunctionTwice.shape.evalInto σ .empty = .ok memo ∧
        memo.Lists conjunctionTwice σ) ∧
      memo.Sound σ ∧
      ∃ memo' : Memo, conjunctionTwice.shape.evalInto σ memo = .ok memo' ∧
        memo'.entries =
          [(.binary .and (.var "A") (.var "B"), false), (conjunctionTwice.shape, false)] ∧
        memo.entries <+: memo'.entries ∧ memo'.Sound σ ∧ conjunctionTwice.shape ∈ memo'.keys := by
  intro σ memo
  have bound : ∀ names, conjunctionTwice.shape.eval? σ ≠ .error (.undeclared names) := by
    intro names missed
    cases missed
  have sound : memo.Sound σ := by
    intro g b found
    have entry := (OrderedMap.get?_eq_some_iff memo g b).mp found
    obtain ⟨rfl, rfl⟩ := Prod.mk.inj (List.mem_singleton.mp entry)
    rfl
  obtain ⟨-, fromEmpty, fromSound⟩ := memo_agrees_with_evaluation conjunctionTwice σ
  exact ⟨bound, fromEmpty bound, sound, _, rfl, rfl, (fromSound memo sound).2 _ rfl⟩

end Sentential.Formula
