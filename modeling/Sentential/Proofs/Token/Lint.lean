import Sentential.Token.Lint

/-!
# What the linter lets pass

A token passes the linter in one of a few ways, by what it is and by what stands before it. Which
message a refused token gets is left out here, except that no message of the linter is one of the
parser's.

## Main definitions

* `Diagnostic.isSyntactic` — the messages about the order of tokens
* `Token.Follows` — a token may follow the previous one inside the open brackets

## Main results

* `Token.lintStep_eq_ok_iff` — a token passes as `Token.Follows` says
* `Token.lintEnd_eq_none_iff` — when the tokens may end
* `Token.isSyntactic_of_lint`, `Token.code_of_lint` — the linter has messages of its own
* `Token.position_of_lintStep`, `Token.position_of_lintEnd` — where its messages point
-/

namespace Sentential

/-- The diagnostic is about the order of tokens. -/
def Diagnostic.isSyntactic : Diagnostic → Bool
  | .adjacentOperators .. | .noLeftOperand .. | .missingOperator .. | .unmatchedCloser ..
  | .mismatchedCloser .. | .emptyGroup .. | .noRightOperand .. | .trailingOperator ..
  | .unclosedBracket .. => true
  | _ => false

namespace Token

variable {previous : Option Token} {opened opened' : List Token} {t p : Token} {ts : List Token}
variable {kind : Kind} {d : Diagnostic}

/-- A token that is no end mark ends an operand, is an operator, or opens a group. -/
theorem Kind.isEnding_iff (unmarked : kind ≠ .stop) :
    kind.isEnding = true ↔ kind.isOperator = false ∧ kind.isOpening = false := by
  cases kind with
  | stop => exact absurd rfl unmarked
  | name | constant | negation | binary | opening | closing =>
    simp [Kind.isEnding, Kind.isOperator, Kind.isOpening]

/-- A token may follow the previous one inside the open brackets, and leaves the given ones open. -/
inductive Follows (previous : Option Token) (opened : List Token) (t : Token) :
    List Token → Prop where
  /-- An operand or a negation begins where no operand has just ended. -/
  | start (starting : t.kind.isStarting = true) (inside : t.kind.isOpening = false)
      (apart : ∀ p ∈ previous, p.kind.isEnding = false) : Follows previous opened t opened
  /-- A group begins there too. -/
  | opening (opens : t.kind.isOpening = true) (apart : ∀ p ∈ previous, p.kind.isEnding = false) :
      Follows previous opened t (t :: opened)
  /-- A connective stands behind an operand. -/
  | binary {op : Connective} {p : Token} (hkind : t.kind = .binary op) (before : previous = some p)
      (notOperator : p.kind.isOperator = false) (notOpening : p.kind.isOpening = false) :
      Follows previous opened t opened
  /-- A group ends behind an operand, with a bracket of its own family. -/
  | closing {bracket : Bracket} {opener : Token} {outer : List Token}
      (hkind : t.kind = .closing bracket) (innermost : opened = opener :: outer)
      (family : opener.kind = .opening bracket)
      (complete : ∀ p ∈ previous, p.kind.isOpening = false ∧ p.kind.isOperator = false) :
      Follows previous opened t outer
  /-- An end mark is ignored. -/
  | stop (hkind : t.kind = .stop) : Follows previous opened t opened

/-- The beginning of an operand passes unless another has just ended. -/
theorem lintStep_of_starting (starting : t.kind.isStarting = true) :
    lintStep previous opened t = .ok opened' ↔ (∀ p ∈ previous, p.kind.isEnding = false) ∧
      (if t.kind.isOpening then t :: opened else opened) = opened' := by
  cases hkind : t.kind with
  | binary | closing | stop => simp [hkind, Kind.isStarting] at starting
  | name | constant | negation | opening =>
    cases previous with
    | none => simp [lintStep, hkind, Kind.isOpening]
    | some p => cases ending : p.kind.isEnding <;> simp [lintStep, hkind, ending, Kind.isOpening]

theorem lintStep_of_binary {op : Connective} (hkind : t.kind = .binary op) :
    lintStep previous opened t = .ok opened' ↔
      (∃ p ∈ previous, p.kind.isOperator = false ∧ p.kind.isOpening = false) ∧
        opened = opened' := by
  cases previous with
  | none => simp [lintStep, hkind]
  | some p =>
    cases operator : p.kind.isOperator <;> cases opening : p.kind.isOpening <;>
      simp [lintStep, hkind, operator, opening]

theorem lintStep_of_closing {bracket : Bracket} (hkind : t.kind = .closing bracket) :
    lintStep previous opened t = .ok opened' ↔
      ∃ opener, opened = opener :: opened' ∧ opener.kind = .opening bracket ∧
        ∀ p ∈ previous, p.kind.isOpening = false ∧ p.kind.isOperator = false := by
  cases opened with
  | nil => simp [lintStep, hkind]
  | cons opener outer =>
    by_cases family : opener.kind = .opening bracket
    · cases previous with
      | none => simp [lintStep, hkind, family, and_assoc]
      | some p =>
        cases opening : p.kind.isOpening <;> cases operator : p.kind.isOperator <;>
          simp [lintStep, hkind, family, opening, operator, and_assoc]
    · simp [lintStep, hkind, family]

/-- A token passes in the ways that `Follows` lists, and in no other. -/
theorem lintStep_eq_ok_iff :
    lintStep previous opened t = .ok opened' ↔ Follows previous opened t opened' := by
  constructor
  · intro passed
    cases hkind : t.kind with
    | name | constant | negation =>
      have starting : t.kind.isStarting = true := by rw [hkind]; rfl
      have inside : t.kind.isOpening = false := by rw [hkind]; rfl
      obtain ⟨apart, same⟩ := (lintStep_of_starting starting).mp passed
      rw [inside] at same
      cases same
      exact .start starting inside apart
    | opening =>
      have opens : t.kind.isOpening = true := by rw [hkind]; rfl
      obtain ⟨apart, more⟩ := (lintStep_of_starting (by rw [hkind]; rfl)).mp passed
      rw [opens] at more
      cases more
      exact .opening opens apart
    | binary op =>
      obtain ⟨⟨p, before, notOperator, notOpening⟩, rfl⟩ := (lintStep_of_binary hkind).mp passed
      exact .binary hkind before notOperator notOpening
    | closing bracket =>
      obtain ⟨opener, rfl, family, complete⟩ := (lintStep_of_closing hkind).mp passed
      exact .closing hkind rfl family complete
    | stop =>
      simp only [lintStep, hkind] at passed
      cases passed
      exact .stop hkind
  · intro follows
    cases follows with
    | start starting inside apart =>
      exact (lintStep_of_starting starting).mpr ⟨apart, by rw [inside]; rfl⟩
    | opening opens apart =>
      have starting : t.kind.isStarting = true := by
        cases hkind : t.kind <;> simp_all [Kind.isOpening, Kind.isStarting]
      exact (lintStep_of_starting starting).mpr ⟨apart, by rw [opens]; rfl⟩
    | binary hkind before notOperator notOpening =>
      exact (lintStep_of_binary hkind).mpr ⟨⟨_, before, notOperator, notOpening⟩, rfl⟩
    | closing hkind innermost family complete =>
      exact (lintStep_of_closing hkind).mpr ⟨_, innermost, family, complete⟩
    | stop hkind => simp only [lintStep, hkind]

/-- The tokens may end behind anything but an operator, when no bracket is open. -/
theorem lintEnd_eq_none_iff : lintEnd previous opened = none ↔
    (∀ p ∈ previous, p.kind.isOperator = false) ∧ opened = [] := by
  cases previous with
  | none => cases opened <;> simp [lintEnd]
  | some p =>
    cases operator : p.kind.isOperator <;> cases opened <;>
      simp [lintEnd, Option.filter, operator]

/-! ### Lists of tokens -/

/-- Behind a token that is no end mark, the linter goes on with what is no end mark. -/
theorem lint_append_eq (unmarked : ∀ t ∈ ts, t.isStop = false) (nonempty : ts ≠ [])
    (more : List Token) :
    lint (ts ++ more) = lintFrom none [] (ts ++ more.filter (fun t => !t.isStop)) := by
  have kept : (ts ++ more).filter (fun t => !t.isStop) =
      ts ++ more.filter (fun t => !t.isStop) := by
    rw [List.filter_append, List.filter_eq_self.mpr fun t mem => by simp [unmarked t mem]]
  rw [lint, kept]
  split
  · next empty => exact absurd (List.append_eq_nil_iff.mp empty).1 nonempty
  · rfl

theorem lint_eq_lintFrom (unmarked : ∀ t ∈ ts, t.isStop = false) (nonempty : ts ≠ []) :
    lint ts = lintFrom none [] ts := by
  simpa using lint_append_eq unmarked nonempty []

theorem lintFrom_cons_of_ok (step : lintStep previous opened t = .ok opened') (ts : List Token) :
    lintFrom previous opened (t :: ts) = lintFrom (some t) opened' ts := by
  rw [lintFrom, step]

theorem lintFrom_cons_of_error (step : lintStep previous opened t = .error d) (ts : List Token) :
    lintFrom previous opened (t :: ts) = some d := by
  rw [lintFrom, step]

/-! ### Messages -/

theorem isSyntactic_of_lintStep (refused : lintStep previous opened t = .error d) :
    d.isSyntactic = true := by
  unfold lintStep at refused
  repeat' split at refused
  all_goals first
    | cases refused; rfl
    | cases refused

theorem isSyntactic_of_lintEnd (refused : lintEnd previous opened = some d) :
    d.isSyntactic = true := by
  unfold lintEnd at refused
  split at refused <;> cases refused <;> rfl

theorem isSyntactic_of_lintFrom (refused : lintFrom previous opened ts = some d) :
    d.isSyntactic = true := by
  induction ts generalizing previous opened with
  | nil => exact isSyntactic_of_lintEnd refused
  | cons t ts ih =>
    rw [lintFrom] at refused
    split at refused
    · rename_i step
      cases refused
      exact isSyntactic_of_lintStep step
    · exact ih refused

/-- A message about a token points at it, at the token before it or at an open bracket. -/
theorem position_of_lintStep (refused : lintStep previous opened t = .error d) :
    ∃ t', (t' = t ∨ t' ∈ previous ∨ t' ∈ opened) ∧ d.position = some t'.pos := by
  unfold lintStep at refused
  split at refused
  · refine ⟨t, Or.inl rfl, ?_⟩
    repeat' split at refused
    all_goals cases refused
    all_goals rfl
  · split at refused
    · cases refused
      exact ⟨t, Or.inl rfl, rfl⟩
    · next opener outer =>
      split at refused
      · cases refused
        exact ⟨t, Or.inl rfl, rfl⟩
      · -- What is wrong inside a group is reported where the group or its last operator stands.
        split at refused
        · cases refused
        · next p =>
          split at refused
          · cases refused
            exact ⟨opener, Or.inr (Or.inr List.mem_cons_self), rfl⟩
          · split at refused
            · cases refused
              exact ⟨p, Or.inr (Or.inl rfl), rfl⟩
            · cases refused
  · cases refused
  · refine ⟨t, Or.inl rfl, ?_⟩
    repeat' split at refused
    all_goals cases refused
    all_goals rfl

/-- A message about the end of the tokens points at the last one or at an open bracket. -/
theorem position_of_lintEnd (refused : lintEnd previous opened = some d) :
    ∃ t', (t' ∈ previous ∨ t' ∈ opened) ∧ d.position = some t'.pos := by
  unfold lintEnd at refused
  split at refused
  · next last =>
    cases refused
    exact ⟨_, Or.inl (Option.mem_filter_iff.mp last).1, rfl⟩
  · next opener outer _ =>
    cases refused
    exact ⟨opener, Or.inr List.mem_cons_self, rfl⟩
  · cases refused

/-- With a token before the end mark, the linter complains about tokens only. -/
theorem isSyntactic_of_lint (nonempty : ∃ t ∈ ts, t.isStop = false) (refused : lint ts = some d) :
    d.isSyntactic = true := by
  unfold lint at refused
  split at refused
  · next empty =>
    obtain ⟨t, mem, unmarked⟩ := nonempty
    rw [List.filter_eq_nil_iff] at empty
    exact absurd (by simpa using unmarked) (empty t mem)
  · exact isSyntactic_of_lintFrom refused

theorem code_of_isSyntactic (syntactic : d.isSyntactic = true) : d.code ≠ "ParseFailure" := by
  cases d <;> simp_all [Diagnostic.isSyntactic, Diagnostic.code]

/-- The linter has messages of its own. -/
theorem code_of_lint (refused : lint ts = some d) : d.code ≠ "ParseFailure" := by
  unfold lint at refused
  split at refused
  · cases refused
    simp [Diagnostic.code]
  · exact code_of_isSyntactic (isSyntactic_of_lintFrom refused)

end Token

end Sentential
