import Mathlib.Data.List.Forall2
import Sentential.Proofs.Tableau.Search
import Sentential.Tableau.Report

/-!
# Searches on expressions that differ in their marks

The search takes its decisions on formulas: an obligation is looked up by the formula of its
expression, and its consequences are read off the connective at the root. Marks only reach the
wording of labels and steps. So two searches on expressions that differ in their marks go the same
way; they end together, under the same limit, in trees that assign the same values, are split and
closed at the same places, and give the same readings.

## Main definitions

* `Expr.Alike` — expressions that differ at most in their marks
* `Obligation.Alike`, `Step.Alike`, `Contradiction.Alike` — the same of what a branch speaks of
* `Branch.Alike` — proof trees that are alike except for their wording
* `Report.Alike` — reports that are alike except for the wording of expressions

## Main results

* `Expr.alike_iff` — expressions are alike if they are the same formula
* `Branch.Alike.solveWithin` — searches that start alike end alike
* `Report.alike_attemptWithin` — attempts on one formula give reports that are alike
-/

namespace Sentential

section Related

variable {α β γ δ : Type} {R : α → β → Prop} {S : γ → δ → Prop} {o : Option α} {o' : Option β}

theorem rel_bind {f : α → Option γ} {g : β → Option δ} (related : Option.Rel R o o')
    (keeps : ∀ a b, R a b → Option.Rel S (f a) (g b)) : Option.Rel S (o.bind f) (o'.bind g) := by
  cases related with
  | none => exact .none
  | some same => exact keeps _ _ same

theorem rel_map {f : α → γ} {g : β → δ} (related : Option.Rel R o o')
    (keeps : ∀ a b, R a b → S (f a) (g b)) : Option.Rel S (o.map f) (o'.map g) := by
  cases related with
  | none => exact .none
  | some same => exact .some (keeps _ _ same)

theorem rel_or {p : Option α} {p' : Option β} (related : Option.Rel R o o')
    (others : Option.Rel R p p') : Option.Rel R (o.or p) (o'.or p') := by
  cases related with
  | none => exact others
  | some same => exact .some same

theorem map_eq_of_rel {f : α → γ} {g : β → γ} (related : Option.Rel R o o')
    (same : ∀ a b, R a b → f a = g b) : o.map f = o'.map g := by
  cases related with
  | none => rfl
  | some found => exact congrArg some (same _ _ found)

end Related

/-! ### Expressions and obligations -/

/-- Expressions that differ at most in their marks. -/
inductive Expr.Alike : Expr → Expr → Prop where
  | var (m m' : Mark) (name : String) : Alike (.var m name) (.var m' name)
  | const (m m' : Mark) (value : Bool) : Alike (.const m value) (.const m' value)
  | not (m m' : Mark) {e e' : Expr} (operand : Alike e e') : Alike (.not m e) (.not m' e')
  | binary (m m' : Mark) (op : Connective) {l l' r r' : Expr} (left : Alike l l')
      (right : Alike r r') : Alike (.binary m op l r) (.binary m' op l' r')

theorem Expr.Alike.shape_eq {e e' : Expr} (alike : e.Alike e') : e.shape = e'.shape := by
  induction alike with
  | var | const => rfl
  | not m m' operand ih => rw [shape, shape, ih]
  | binary m m' op left right ihl ihr => rw [shape, shape, ihl, ihr]

theorem Expr.alike_of_shape_eq {e e' : Expr} (same : e.shape = e'.shape) : e.Alike e' := by
  induction e generalizing e' with
  | var m name =>
    cases e' <;> cases same
    exact .var _ _ _
  | const m value =>
    cases e' <;> cases same
    exact .const _ _ _
  | not m e ih =>
    cases e' with
    | var | const | binary => cases same
    | not m' e' => exact .not _ _ (ih (Formula.not.inj same))
  | binary m op l r ihl ihr =>
    cases e' with
    | var | const | not => cases same
    | binary m' op' l' r' =>
      obtain ⟨rfl, left, right⟩ := Formula.binary.inj same
      exact .binary _ _ _ (ihl left) (ihr right)

/-- Expressions differ at most in their marks if they are the same formula. -/
theorem Expr.alike_iff {e e' : Expr} : e.Alike e' ↔ e.shape = e'.shape :=
  ⟨Alike.shape_eq, alike_of_shape_eq⟩

/-- Obligations for the same value of expressions that are alike. -/
structure Obligation.Alike (ob ob' : Obligation) : Prop where
  expr : ob.expr.Alike ob'.expr
  value_eq : ob.value = ob'.value

/-- Consequences with the same choices, between obligations that are alike. -/
inductive Consequences.Alike : Consequences → Consequences → Prop where
  | all {obs obs' : List Obligation} (same : List.Forall₂ Obligation.Alike obs obs') :
      Alike (.all obs) (.all obs')
  | either {first first' second second' : List Obligation}
      (sameFirst : List.Forall₂ Obligation.Alike first first')
      (sameSecond : List.Forall₂ Obligation.Alike second second') :
      Alike (.either first second) (.either first' second')

namespace Consequences.Alike

variable {obs first second : List Obligation} {c : Consequences}

theorem exists_all (alike : Alike (.all obs) c) :
    ∃ obs', c = .all obs' ∧ List.Forall₂ Obligation.Alike obs obs' := by
  cases alike with
  | all same => exact ⟨_, rfl, same⟩

theorem exists_either (alike : Alike (.either first second) c) :
    ∃ first' second', c = .either first' second' ∧
      List.Forall₂ Obligation.Alike first first' ∧
      List.Forall₂ Obligation.Alike second second' := by
  cases alike with
  | either sameFirst sameSecond => exact ⟨_, _, rfl, sameFirst, sameSecond⟩

end Consequences.Alike

namespace Obligation

variable {l l' r r' : Expr} {ob ob' : Obligation}

theorem alike_singleton (alike : l.Alike l') (a : Bool) :
    List.Forall₂ Alike [⟨l, a⟩] [⟨l', a⟩] := .cons ⟨alike, rfl⟩ .nil

theorem alike_both (left : l.Alike l') (right : r.Alike r') (a b : Bool) :
    List.Forall₂ Alike (both l a r b) (both l' a r' b) :=
  .cons ⟨left, rfl⟩ (alike_singleton right b)

/-- The queue gets smaller when an obligation is replaced by smaller ones at its end. -/
theorem totalSize_append_lt {obs : List Obligation} (smaller : totalSize obs < ob.size)
    (rest : List Obligation) : totalSize (rest ++ obs) < totalSize (ob :: rest) := by
  rw [totalSize_append, totalSize_cons]
  omega

theorem totalSize_lt_cons (ob : Obligation) (rest : List Obligation) :
    totalSize rest < totalSize (ob :: rest) := by
  have nonempty := ob.size_pos
  rw [totalSize_cons]
  omega

/-- What an obligation requires of the operands does not depend on marks. -/
theorem Alike.consequences (alike : ob.Alike ob') :
    ob.consequences.Alike ob'.consequences := by
  obtain ⟨e, b⟩ := ob
  obtain ⟨e', b'⟩ := ob'
  obtain ⟨alike, same⟩ := alike
  cases same
  cases alike with
  | var | const => exact .all .nil
  | not m m' operand => exact .all (alike_singleton operand _)
  | binary m m' op left right =>
    -- Either both operands get a value, or one of them does in each case, or both in each case.
    cases op <;> cases b <;> first
      | exact .all (alike_both left right _ _)
      | exact .either (alike_singleton left _) (alike_singleton right _)
      | exact .either (alike_both left right _ _) (alike_both left right _ _)

end Obligation

/-! ### Branches -/

/-- Steps with the same reason, about the same formula and value. -/
inductive Step.Alike : Step → Step → Prop where
  | assumption {e e' : Expr} (expr : e.Alike e') : Alike (.assumption e) (.assumption e')
  | subcase (label label' : String) : Alike (.subcase label) (.subcase label')
  | forced {ob ob' : Obligation} (same : ob.Alike ob') : Alike (.forced ob) (.forced ob')
  | split {ob ob' : Obligation} (same : ob.Alike ob') : Alike (.split ob) (.split ob')
  | conflict {ob ob' : Obligation} (same : ob.Alike ob') (previous : Bool) :
      Alike (.conflict ob previous) (.conflict ob' previous)

/-- Contradictions between the same values of the same formula. -/
structure Contradiction.Alike (c c' : Contradiction) : Prop where
  obligation : c.obligation.Alike c'.obligation
  previous_eq : c.previous = c'.previous

/-- Proof trees of one form with the same assignments and marks, whose logs tell the same. -/
inductive Branch.Alike : Branch → Branch → Prop where
  | mk {b b' : Branch} (assignments : b.assignments = b'.assignments)
      (steps : List.Forall₂ Step.Alike b.steps b'.steps) (status : b.status = b'.status)
      (contradiction : Option.Rel Contradiction.Alike b.contradiction b'.contradiction)
      (children : List.Forall₂ Branch.Alike b.children b'.children) : Alike b b'

namespace Branch

variable {b b' x x' y y' : Branch} {ob ob' : Obligation} {obs obs' : List Obligation} {limit : Nat}

theorem Alike.assignments_eq (alike : b.Alike b') : b.assignments = b'.assignments := by
  cases alike
  assumption

theorem Alike.status_eq (alike : b.Alike b') : b.status = b'.status := by
  cases alike
  assumption

theorem Alike.steps_append (alike : b.Alike b') {step step' : Step} (same : step.Alike step') :
    List.Forall₂ Step.Alike (b.steps ++ [step]) (b'.steps ++ [step']) := by
  obtain ⟨-, steps, -, -, -⟩ := alike
  exact List.rel_append steps (.cons same .nil)

theorem Alike.held?_eq (alike : b.Alike b') (same : ob.Alike ob') :
    b.held? ob.expr.shape = b'.held? ob'.expr.shape := by
  simp only [held?, alike.assignments_eq, same.expr.shape_eq]

theorem alike_empty : Alike {} {} := .mk rfl .nil rfl .none .nil

theorem Alike.complete (alike : b.Alike b') :
    Alike { b with status := .complete } { b' with status := .complete } := by
  obtain ⟨assignments, steps, -, contradiction, children⟩ := alike
  exact .mk assignments steps rfl contradiction children

theorem Alike.force (alike : b.Alike b') (same : ob.Alike ob') :
    (b.force ob).Alike (b'.force ob') := by
  have steps := alike.steps_append (.forced same)
  obtain ⟨assignments, -, status, contradiction, children⟩ := alike
  refine .mk ?_ steps status contradiction children
  rw [Branch.force, Branch.force, assignments, same.expr.shape_eq, same.value_eq]

theorem Alike.close (alike : b.Alike b') (same : ob.Alike ob') (previous : Bool) :
    (b.close ob previous).Alike (b'.close ob' previous) := by
  have steps := alike.steps_append (.conflict same previous)
  obtain ⟨assignments, -, -, -, children⟩ := alike
  exact .mk assignments steps rfl (.some ⟨same, rfl⟩) children

theorem Alike.markSplit (alike : b.Alike b') (same : ob.Alike ob') :
    (b.markSplit ob).Alike (b'.markSplit ob') := by
  have steps := alike.steps_append (.split same)
  obtain ⟨assignments, -, status, contradiction, children⟩ := alike
  exact .mk assignments steps status contradiction children

theorem Alike.child (alike : b.Alike b') (label label' : String) :
    (b.child label).Alike (b'.child label') :=
  .mk alike.assignments_eq (.cons (.subcase _ _) .nil) rfl .none .nil

theorem Alike.join (alike : b.Alike b') (first : x.Alike x') (second : y.Alike y') :
    (b.join [x, y]).Alike (b'.join [x', y']) := by
  obtain ⟨assignments, steps, -, contradiction, -⟩ := alike
  refine .mk assignments steps ?_ contradiction (.cons first (.cons second .nil))
  simp [Branch.join, first.status_eq, second.status_eq]

/-! ### The search -/

/-- Searches that start alike end alike, if one of them ends. The measure of the search is the same
on both sides, so the induction is on that of one. -/
theorem Alike.solveWithin (alike : b.Alike b') (limit : Nat)
    (same : List.Forall₂ Obligation.Alike obs obs') :
    Option.Rel Alike (b.solveWithin limit obs) (b'.solveWithin limit obs') := by
  induction total : Obligation.totalSize obs using Nat.strongRecOn
    generalizing limit b b' obs obs' with
  | ind n ih =>
    subst total
    cases same with
    | nil =>
      rw [solveWithin_nil, solveWithin_nil]
      exact .some alike.complete
    | @cons ob ob' rest rest' matched others =>
      -- Both sides look up the same formula in the same assignments.
      cases held : b.held? ob.expr.shape with
      | some previous =>
        have held' := (alike.held?_eq matched).symm.trans held
        by_cases met : previous = ob.value
        · rw [solveWithin_of_held (met ▸ held),
            solveWithin_of_held (matched.value_eq ▸ met ▸ held')]
          exact ih _ (Obligation.totalSize_lt_cons ob rest) alike _ others rfl
        · rw [solveWithin_of_conflict held met,
            solveWithin_of_conflict held' (matched.value_eq ▸ met)]
          exact .some (alike.close matched previous)
      | none =>
        have held' := (alike.held?_eq matched).symm.trans held
        cases wanted : ob.consequences with
        | all obs =>
          have smaller :=
            Obligation.totalSize_append_lt (Obligation.totalSize_lt_of_all wanted) rest
          obtain ⟨obs', wanted', same⟩ := (wanted ▸ matched.consequences).exists_all
          rw [solveWithin_of_all held wanted, solveWithin_of_all held' wanted']
          exact ih _ smaller (alike.force matched) _ (List.rel_append others same) rfl
        | either first second =>
          have sizes := Obligation.totalSize_lt_of_either wanted
          obtain ⟨first', second', wanted', sameFirst, sameSecond⟩ :=
            (wanted ▸ matched.consequences).exists_either
          cases limit with
          | zero =>
            rw [solveWithin_zero_of_either held wanted, solveWithin_zero_of_either held' wanted']
            exact .none
          | succ limit =>
            -- The children get labels of their own wording; everything else is alike.
            have split := (alike.force matched).markSplit matched
            have firsts := ih _ (Obligation.totalSize_append_lt sizes.1 rest)
              (split.child (caseLabel first) (caseLabel first')) limit
              (List.rel_append others sameFirst) rfl
            have seconds := ih _ (Obligation.totalSize_append_lt sizes.2 rest)
              (split.child (caseLabel second) (caseLabel second')) limit
              (List.rel_append others sameSecond) rfl
            rw [solveWithin_succ_of_either held wanted, solveWithin_succ_of_either held' wanted']
            exact rel_bind firsts fun _ _ alikeX => rel_map seconds fun _ _ alikeY =>
              split.join alikeX alikeY

/-! ### Readings -/

mutual

theorem Alike.isClosed_eq : {b b' : Branch} → b.Alike b' → b.isClosed = b'.isClosed
  | ⟨_, _, _, status, _, children⟩, ⟨_, _, _, _, _, children'⟩, .mk _ _ same _ below => by
    cases same
    have empty : children.isEmpty = children'.isEmpty := by cases below <;> rfl
    cases status <;> simp only [isClosed, empty, Alike.allClosed_eq below]

theorem Alike.allClosed_eq : {bs bs' : List Branch} → List.Forall₂ Alike bs bs' →
    allClosed bs = allClosed bs'
  | [], [], .nil => rfl
  | _ :: _, _ :: _, .cons first rest => by
    rw [allClosed, allClosed, Alike.isClosed_eq first, Alike.allClosed_eq rest]

end

theorem openLeafOf?_cons (b : Branch) (bs : List Branch) :
    openLeafOf? (b :: bs) = b.openLeaf?.or (openLeafOf? bs) := by
  rw [openLeafOf?]
  cases b.openLeaf? <;> rfl

mutual

theorem Alike.openLeaf? : {b b' : Branch} → b.Alike b' →
    Option.Rel Alike b.openLeaf? b'.openLeaf?
  | ⟨_, _, _, status, _, children⟩, ⟨_, _, _, _, _, children'⟩, alike@(.mk _ _ same _ below) => by
    cases same
    have empty : children.isEmpty = children'.isEmpty := by cases below <;> rfl
    rw [Branch.openLeaf?, Branch.openLeaf?, empty]
    split
    · split
      · exact .some alike
      · exact .none
    · exact Alike.openLeafOf? below

theorem Alike.openLeafOf? : {bs bs' : List Branch} → List.Forall₂ Alike bs bs' →
    Option.Rel Alike (openLeafOf? bs) (openLeafOf? bs')
  | [], [], .nil => .none
  | _ :: _, _ :: _, .cons first rest => by
    rw [openLeafOf?_cons, openLeafOf?_cons]
    exact rel_or (Alike.openLeaf? first) (Alike.openLeafOf? rest)

end

theorem Alike.variableValues_eq (alike : b.Alike b') : b.variableValues = b'.variableValues := by
  rw [variableValues, variableValues, alike.assignments_eq]

end Branch

/-! ### Reports -/

/-- Reports that are the same except for the wording of expressions. -/
structure Report.Alike (report report' : Report) : Prop where
  target_eq : report.target = report'.target
  title_eq : report.title = report'.title
  /-- As many assumptions, of the same values. -/
  values_eq : report.assumptions.map Prod.snd = report'.assumptions.map Prod.snd
  root : report.root.Alike report'.root
  proven_eq : report.proven = report'.proven
  summary_eq : report.summary = report'.summary
  counterExample_eq : report.counterExample = report'.counterExample
  forced_eq : report.forced = report'.forced
  witnesses_eq : report.witnesses = report'.witnesses
  warning_eq : report.warning = report'.warning

namespace Report

variable {e e' l l' r r' : Expr} {root root' : Branch} {vars : List String} {target : Target}
variable {title provenText disprovenText : String} {assumptions assumptions' : List (String × Bool)}

theorem alike_ofTree (alike : root.Alike root')
    (values : assumptions.map Prod.snd = assumptions'.map Prod.snd) :
    (ofTree target title assumptions root vars provenText disprovenText).Alike
      (ofTree target title assumptions' root' vars provenText disprovenText) := by
  have closed := alike.isClosed_eq
  have leaf : Option.Rel Branch.Alike (if root.isClosed then none else root.openLeaf?)
      (if root'.isClosed then none else root'.openLeaf?) := by
    rw [closed]
    split
    · exact .none
    · exact alike.openLeaf?
  refine ⟨rfl, rfl, values, alike, closed, ?_, ?_, ?_, rfl, rfl⟩
  · rw [ofTree, ofTree, closed]
  · exact map_eq_of_rel leaf fun _ _ found => by rw [found.variableValues_eq]
  · exact congrArg (fun names => Option.getD names [])
      (map_eq_of_rel leaf fun _ _ found => by rw [found.variableValues_eq])

theorem alike_single (alike : e.Alike e') (limit : Nat) (vars : List String) (target : Target)
    (title : String) : Option.Rel Alike (single limit e vars target title)
      (single limit e' vars target title) :=
  rel_map (Branch.alike_empty.solveWithin limit (Obligation.alike_singleton alike _))
    fun _ _ root => alike_ofTree root (by rfl)

theorem alike_ofImplication (left : l.Alike l') (right : r.Alike r') (limit : Nat)
    (vars : List String) :
    Option.Rel Alike (ofImplication limit l r vars) (ofImplication limit l' r' vars) :=
  rel_map (Branch.alike_empty.solveWithin limit (Obligation.alike_both left right _ _))
    fun _ _ root => alike_ofTree root (by rfl)

theorem alike_ofEquivalence (alike : e.Alike e') (left : l.Alike l') (right : r.Alike r')
    (limit : Nat) (vars : List String) :
    Option.Rel Alike (ofEquivalence limit e l r vars) (ofEquivalence limit e' l' r' vars) := by
  have start : Branch.Alike { steps := [.assumption e] } { steps := [.assumption e'] } :=
    .mk rfl (.cons (.assumption alike) .nil) rfl .none .nil
  have first := (start.child (Branch.caseLabel (Obligation.both l true r false))
    (Branch.caseLabel (Obligation.both l' true r' false))).solveWithin limit
      (Obligation.alike_both left right true false)
  have second := (start.child (Branch.caseLabel (Obligation.both l false r true))
    (Branch.caseLabel (Obligation.both l' false r' true))).solveWithin limit
      (Obligation.alike_both left right false true)
  unfold ofEquivalence
  dsimp only
  -- Only whether the first case ends, and in what, matters for the rest.
  generalize Branch.solveWithin limit _ (Obligation.both l true r false) = x at first ⊢
  generalize Branch.solveWithin limit _ (Obligation.both l' true r' false) = x' at first ⊢
  cases first with
  | none => exact .none
  | some alikeX =>
    exact rel_map second fun _ _ alikeY => alike_ofTree (start.join alikeX alikeY) (by rfl)

theorem alike_ofContingency (alike : e.Alike e') (limit : Nat) (vars : List String) :
    Option.Rel Alike (ofContingency limit e vars) (ofContingency limit e' vars) := by
  refine rel_bind (alike_single alike limit vars _ _) fun always always' same => ?_
  rw [same.proven_eq]
  split
  · exact .some ⟨rfl, rfl, rfl, same.root, rfl, rfl, rfl, rfl, rfl, rfl⟩
  refine rel_bind (alike_single alike limit vars _ _) fun never never' same' => ?_
  rw [same'.proven_eq]
  split
  · exact .some ⟨rfl, rfl, rfl, same'.root, rfl, rfl, rfl, rfl, rfl, rfl⟩
  · refine .some ⟨rfl, rfl, rfl, same.root, rfl, rfl, rfl, rfl, ?_, rfl⟩
    rw [same.counterExample_eq, same'.counterExample_eq]

/-- Attempts on expressions that are alike give reports that are alike, if one of them ends. -/
theorem alike_attemptWithin (alike : e.Alike e') (limit : Nat) (vars : List String)
    (target : Target) : Option.Rel Alike (attemptWithin limit e vars target)
      (attemptWithin limit e' vars target) := by
  have fallback : ∀ warning : Option String, Option.Rel Alike
      ((single limit e vars .tautology "Prove Tautology (Fallback)").map fun r =>
        { r with warning })
      ((single limit e' vars .tautology "Prove Tautology (Fallback)").map fun r =>
        { r with warning }) :=
    fun warning => rel_map (alike_single alike limit vars _ _) fun _ _ same =>
      { same with warning_eq := rfl }
  cases target with
  | contingency => exact alike_ofContingency alike limit vars
  | tautology | contradiction => exact alike_single alike limit vars _ _
  | implication =>
    cases alike with
    | var | const | not => exact fallback _
    | binary m m' op left right =>
      cases op with
      | implies => exact alike_ofImplication left right limit vars
      | and | or | xor | iff => exact fallback _
  | equivalence =>
    cases alike with
    | var | const | not => exact fallback _
    | binary m m' op left right =>
      cases op with
      | iff => exact alike_ofEquivalence (.binary m m' .iff left right) left right limit vars
      | and | or | xor | implies => exact fallback _

end Report

end Sentential
