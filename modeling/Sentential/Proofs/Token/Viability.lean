import Mathlib.Logic.Basic
import Mathlib.Order.Basic
import Sentential.Proofs.Token.Lint

/-!
# The linter stops at the point of no return

As long as the linter has found nothing, its tokens are the beginning of a formula: whatever it
remembers, a missing operand can be supplied and the open brackets can be closed. So a message about
a token means that this token, and none before it, makes every continuation wrong. Only the messages
about the end of the tokens are taken back when more of them follow.

The two kinds of message are told apart by one induction on the tokens, with what the linter
remembers as its invariant.

## Main definitions

* `Token.completion` — tokens that complete a formula
* `Token.Remembers` — what the linter remembers is what it has read
* `Token.Viable` — some continuation is accepted
* `Token.EndsEarly`, `Token.FailsAt` — the two ways to be refused

## Main results

* `Token.lintFrom_completion` — what has no fault so far can be completed
* `Token.Remembers.viable_or_final` — the two ways to be refused, from any state of the linter
* `Token.lint_reports_first_fault` — a message is about the first token that is fatal, or the end
-/

namespace Sentential

/-- The message says that the tokens end too early. -/
def Diagnostic.isUnfinished : Diagnostic → Bool
  | .emptyExpression | .trailingOperator _ | .unclosedBracket _ => true
  | _ => false

namespace Token

variable {previous : Option Token} {opened opened' read ts body : List Token} {t p : Token}
variable {kind : Kind} {d : Diagnostic} {k j : Nat}

/-! ### Completions -/

/-- The token that closes what the given one opens. -/
def closerOf (t : Token) : Token :=
  match t.kind with
  | .opening bracket => ⟨.closing bracket, String.singleton bracket.closer, t.pos⟩
  | _ => t

/-- A variable, to stand where an operand is missing. -/
def anyName : Token := ⟨.name, "A", 0⟩

/-- Tokens that complete a formula: an operand if one is missing, then the closers of the brackets
that are still open. -/
def completion (previous : Option Token) (opened : List Token) : List Token :=
  if ∃ p ∈ previous, p.kind.isEnding = true then opened.map closerOf
  else anyName :: opened.map closerOf

theorem exists_closerOf_eq (opening : t.kind.isOpening = true) :
    ∃ bracket, t.kind = .opening bracket ∧ (closerOf t).kind = .closing bracket := by
  cases hkind : t.kind with
  | opening bracket => exact ⟨bracket, rfl, by simp [closerOf, hkind]⟩
  | name | constant | negation | binary | closing | stop => simp [hkind, Kind.isOpening] at opening

theorem Kind.isComplete_of_isEnding (ending : kind.isEnding = true) :
    kind.isOpening = false ∧ kind.isOperator = false := by
  have unmarked : kind ≠ .stop := by
    rintro rfl
    cases ending
  exact ((Kind.isEnding_iff unmarked).mp ending).symm

/-- Behind an operand, the open brackets can be closed one after the other. -/
theorem lintFrom_map_closerOf (ending : p.kind.isEnding = true)
    (opening : ∀ o ∈ opened, o.kind.isOpening = true) :
    lintFrom (some p) opened (opened.map closerOf) = none := by
  have complete := Kind.isComplete_of_isEnding ending
  induction opened generalizing p with
  | nil =>
    refine lintEnd_eq_none_iff.mpr ⟨?_, rfl⟩
    rintro _ ⟨⟩
    exact complete.2
  | cons o outer ih =>
    rw [List.forall_mem_cons] at opening
    obtain ⟨bracket, family, closing⟩ := exists_closerOf_eq opening.1
    have follows : Follows (some p) (o :: outer) (closerOf o) outer := by
      refine .closing closing rfl family ?_
      rintro _ ⟨⟩
      exact complete
    have ends : (closerOf o).kind.isEnding = true := by
      rw [closing]
      rfl
    rw [List.map_cons, lintFrom_cons_of_ok (lintStep_eq_ok_iff.mpr follows)]
    exact ih ends opening.2 (Kind.isComplete_of_isEnding ends)

/-- What has no fault so far can be completed. -/
theorem lintFrom_completion (opening : ∀ o ∈ opened, o.kind.isOpening = true) :
    lintFrom previous opened (completion previous opened) = none := by
  unfold completion
  split
  · next complete =>
    obtain ⟨p, rfl, ending⟩ := complete
    exact lintFrom_map_closerOf ending opening
  · next missing =>
    have follows : Follows previous opened anyName opened :=
      .start rfl rfl fun p before => Bool.eq_false_iff.mpr fun ending => missing ⟨p, before, ending⟩
    rw [lintFrom_cons_of_ok (lintStep_eq_ok_iff.mpr follows)]
    exact lintFrom_map_closerOf rfl opening

theorem isStop_of_mem_completion (opening : ∀ o ∈ opened, o.kind.isOpening = true) :
    ∀ t ∈ completion previous opened, t.isStop = false := by
  have closers : ∀ t ∈ opened.map closerOf, t.isStop = false := by
    rw [List.forall_mem_map]
    intro o mem
    obtain ⟨bracket, -, closing⟩ := exists_closerOf_eq (opening o mem)
    exact decide_eq_false (by simp [closing])
  unfold completion
  split
  · exact closers
  · exact List.forall_mem_cons.mpr ⟨rfl, closers⟩

/-! ### What the linter remembers -/

/-- What the linter remembers are tokens that it has read: the last one, and opening brackets. -/
structure Remembers (read : List Token) (previous : Option Token) (opened : List Token) : Prop where
  previous_mem : ∀ p ∈ previous, p ∈ read
  opened_mem : ∀ o ∈ opened, o ∈ read
  opening : ∀ o ∈ opened, o.kind.isOpening = true

theorem remembers_start : Remembers [] none [] where
  previous_mem := by simp
  opened_mem := by simp
  opening := by simp

theorem Remembers.step (remembers : Remembers read previous opened)
    (step : lintStep previous opened t = .ok opened') :
    Remembers (read ++ [t]) (some t) opened' := by
  have last : ∀ p ∈ some t, p ∈ read ++ [t] := by simp
  have known : ∀ o ∈ opened, o ∈ read ++ [t] :=
    fun o mem => List.mem_append_left [t] (remembers.opened_mem o mem)
  cases lintStep_eq_ok_iff.mp step with
  | start | binary | stop => exact ⟨last, known, remembers.opening⟩
  | opening opens _ =>
    exact ⟨last, List.forall_mem_cons.mpr ⟨by simp, known⟩,
      List.forall_mem_cons.mpr ⟨opens, remembers.opening⟩⟩
  | closing _ innermost _ _ =>
    subst innermost
    exact ⟨last, (List.forall_mem_cons.mp known).2, (List.forall_mem_cons.mp remembers.opening).2⟩

theorem Remembers.exists_position (remembers : Remembers read previous opened)
    (refused : lintStep previous opened t = .error d) :
    ∃ t' ∈ read ++ [t], d.position = some t'.pos := by
  obtain ⟨t', rfl | before | inside, position⟩ := position_of_lintStep refused
  · exact ⟨t', by simp, position⟩
  · exact ⟨t', List.mem_append_left _ (remembers.previous_mem t' before), position⟩
  · exact ⟨t', List.mem_append_left _ (remembers.opened_mem t' inside), position⟩

theorem Remembers.exists_position_end (remembers : Remembers read previous opened)
    (refused : lintEnd previous opened = some d) : ∃ t ∈ read, d.position = some t.pos := by
  obtain ⟨t, before | inside, position⟩ := position_of_lintEnd refused
  · exact ⟨t, remembers.previous_mem t before, position⟩
  · exact ⟨t, remembers.opened_mem t inside, position⟩

/-! ### From any state -/

theorem isUnfinished_of_lintEnd (refused : lintEnd previous opened = some d) :
    d.isUnfinished = true := by
  unfold lintEnd at refused
  split at refused <;> cases refused <;> rfl

/-- From a state of the linter, the tokens have a continuation without end marks that passes. -/
def ViableFrom (previous : Option Token) (opened ts : List Token) : Prop :=
  ∃ more, (∀ t ∈ more, t.isStop = false) ∧ lintFrom previous opened (ts ++ more) = none

theorem Remembers.viableFrom_nil (remembers : Remembers read previous opened) :
    ViableFrom previous opened [] :=
  ⟨completion previous opened, isStop_of_mem_completion remembers.opening,
    lintFrom_completion remembers.opening⟩

theorem ViableFrom.cons (step : lintStep previous opened t = .ok opened')
    (viable : ViableFrom (some t) opened' ts) : ViableFrom previous opened (t :: ts) := by
  obtain ⟨more, unmarked, passed⟩ := viable
  exact ⟨more, unmarked, (lintFrom_cons_of_ok step _).trans passed⟩

/-- The tokens end too early, or one of them is the first that no continuation makes up for. -/
theorem Remembers.viable_or_final (remembers : Remembers read previous opened)
    (refused : lintFrom previous opened ts = some d) :
    (d.isUnfinished = true ∧ ViableFrom previous opened ts ∧
      ∃ t ∈ read ++ ts, d.position = some t.pos) ∨
    ∃ k, 1 ≤ k ∧ k ≤ ts.length ∧
      (∀ more, lintFrom previous opened (ts.take k ++ more) = some d) ∧
      (∀ j < k, ViableFrom previous opened (ts.take j)) ∧
      ∃ t ∈ read ++ ts.take k, d.position = some t.pos := by
  induction ts generalizing read previous opened with
  | nil =>
    refine Or.inl ⟨isUnfinished_of_lintEnd refused, remembers.viableFrom_nil, ?_⟩
    simpa using remembers.exists_position_end refused
  | cons t ts ih =>
    cases step : lintStep previous opened t with
    | error d' =>
      -- Only the empty list comes before the refused token, and it can be completed.
      rw [lintFrom_cons_of_error step, Option.some.injEq] at refused
      subst refused
      refine Or.inr ⟨1, Nat.le_refl 1, Nat.le_add_left 1 _, lintFrom_cons_of_error step,
        fun j before => ?_, remembers.exists_position step⟩
      obtain rfl : j = 0 := by omega
      exact remembers.viableFrom_nil
    | ok opened' =>
      -- Behind a token that passes, what holds of the other tokens holds one place later.
      rw [lintFrom_cons_of_ok step] at refused
      have later := ih (remembers.step step) refused
      simp only [List.append_assoc, List.singleton_append] at later
      rcases later with ⟨unfinished, viable, located⟩ | ⟨k, -, le, final, viable, located⟩
      · exact Or.inl ⟨unfinished, viable.cons step, located⟩
      · refine Or.inr ⟨k + 1, Nat.le_add_left 1 k, Nat.succ_le_succ le, fun more => ?_,
          fun j before => ?_, located⟩
        · exact (lintFrom_cons_of_ok step _).trans (final more)
        · cases j with
          | zero => exact remembers.viableFrom_nil
          | succ j => exact (viable j (Nat.lt_of_succ_lt_succ before)).cons step

/-! ### From the start -/

/-- The tokens have a continuation without end marks that passes the linter. -/
def Viable (ts : List Token) : Prop :=
  ∃ more, (∀ t ∈ more, t.isStop = false) ∧ lint (ts ++ more) = none

/-- Nothing is wrong with the tokens except that they end here. -/
structure EndsEarly (body : List Token) (d : Diagnostic) : Prop where
  unfinished : d.isUnfinished = true
  viable : Viable body

/-- The last of the first `k` tokens makes every continuation wrong, and none before it does. -/
structure FailsAt (body : List Token) (d : Diagnostic) (k : Nat) : Prop where
  one_le : 1 ≤ k
  le_length : k ≤ body.length
  /-- Whatever follows, the message is the same. -/
  final : ∀ more, lint (body.take k ++ more) = some d
  /-- Until then, something could have followed. -/
  viable : ∀ j < k, Viable (body.take j)

theorem viable_nil : Viable [] := ⟨[anyName], by simp [anyName, isStop], rfl⟩

theorem ViableFrom.viable (viable : ViableFrom none [] ts)
    (unmarked : ∀ t ∈ ts, t.isStop = false) (nonempty : ts ≠ []) : Viable ts := by
  obtain ⟨more, clean, passed⟩ := viable
  refine ⟨more, clean, ?_⟩
  rw [lint_append_eq unmarked nonempty, List.filter_eq_self.mpr fun t mem => by simp [clean t mem]]
  exact passed

theorem FailsAt.not_viable (fails : FailsAt body d k) : ¬ Viable body := by
  rintro ⟨more, -, passed⟩
  have refused := fails.final (body.drop k ++ more)
  rw [← List.append_assoc, List.take_append_drop, passed] at refused
  cases refused

theorem FailsAt.le_of_failsAt (fails : FailsAt body d k) (fails' : FailsAt body d j) : k ≤ j := by
  by_contra before
  obtain ⟨more, -, passed⟩ := fails.viable j (by omega)
  rw [fails'.final more] at passed
  cases passed

/-- **The linter reports the first point of no return.** Tokens that it refuses end too early, or
there is a first one among them that no continuation makes up for; never both. In either case the
message points at a token that was read until then, unless there is none. -/
theorem lint_reports_first_fault (unmarked : ∀ t ∈ body, t.isStop = false)
    (refused : lint body = some d) :
    Xor (EndsEarly body d) (∃ k, FailsAt body d k) ∧
    (body = [] ↔ d = .emptyExpression) ∧
    (d ≠ .emptyExpression → ∃ t ∈ body, d.position = some t.pos) ∧
    ∀ k, FailsAt body d k → ∃ t ∈ body.take k, d.position = some t.pos := by
  by_cases empty : body = []
  · subst empty
    cases refused
    have none : ¬ ∃ k, FailsAt [] .emptyExpression k :=
      fun ⟨k, fails⟩ => fails.not_viable viable_nil
    exact ⟨Or.inl ⟨⟨rfl, viable_nil⟩, none⟩, by simp, by simp,
      fun k fails => absurd ⟨k, fails⟩ none⟩
  · rw [lint_eq_lintFrom unmarked empty] at refused
    have named : d ≠ .emptyExpression := by
      rintro rfl
      cases isSyntactic_of_lintFrom refused
    rcases remembers_start.viable_or_final refused with
      ⟨unfinished, viable, located⟩ | ⟨k, one_le, le, final, viable, located⟩
    · have early : EndsEarly body d := ⟨unfinished, viable.viable unmarked empty⟩
      have none : ¬ ∃ k, FailsAt body d k := fun ⟨k, fails⟩ => fails.not_viable early.viable
      exact ⟨Or.inl ⟨early, none⟩, iff_of_false empty named, fun _ => located,
        fun k fails => absurd ⟨k, fails⟩ none⟩
    · have front : ∀ j, ∀ t ∈ body.take j, t.isStop = false :=
        fun j t mem => unmarked t (List.mem_of_mem_take mem)
      have begun : ∀ j, 1 ≤ j → body.take j ≠ [] := by
        intro j positive
        simp only [ne_eq, List.take_eq_nil_iff, empty, or_false]
        omega
      have fails : FailsAt body d k := by
        refine ⟨one_le, le, fun more => ?_, fun j before => ?_⟩
        · rw [lint_append_eq (front k) (begun k one_le)]
          exact final _
        · rcases Nat.eq_zero_or_pos j with rfl | positive
          · exact viable_nil
          · exact (viable j before).viable (front j) (begun j positive)
      refine ⟨Or.inr ⟨⟨k, fails⟩, fun early => fails.not_viable early.viable⟩,
        iff_of_false empty named, fun _ => ?_, fun k' fails' => ?_⟩
      · obtain ⟨t, mem, position⟩ := located
        exact ⟨t, List.mem_of_mem_take mem, position⟩
      · obtain rfl := Nat.le_antisymm (fails.le_of_failsAt fails') (fails'.le_of_failsAt fails)
        exact located

/-- The tokens of `(A & ~] | B`, where the square bracket closes a round one before the operand of
the negation is missed, and those of `[(A ->`, which only end too early. -/
theorem lint_reports_first_fault_mismatch :
    (let body : List Token := [⟨.opening .paren, "(", 0⟩, ⟨.name, "A", 1⟩, ⟨.binary .and, "&", 3⟩,
        ⟨.negation, "~", 5⟩, ⟨.closing .square, "]", 6⟩, ⟨.binary .or, "|", 8⟩, ⟨.name, "B", 10⟩]
      let d : Diagnostic := .mismatchedCloser ⟨.opening .paren, "(", 0⟩ ⟨.closing .square, "]", 6⟩
      lint body = some d ∧ ∃ k, FailsAt body d k ∧ ∃ t ∈ body.take k, d.position = some t.pos) ∧
    (let body : List Token := [⟨.opening .square, "[", 0⟩, ⟨.opening .paren, "(", 1⟩,
        ⟨.name, "A", 2⟩, ⟨.binary .implies, "->", 4⟩]
      let d : Diagnostic := .trailingOperator ⟨.binary .implies, "->", 4⟩
      lint body = some d ∧ EndsEarly body d ∧ ∃ t ∈ body, d.position = some t.pos) := by
  constructor
  · intro body d
    have refused : lint body = some d := by decide
    have report := lint_reports_first_fault (by decide) refused
    rcases report.1 with ⟨early, -⟩ | ⟨⟨k, fails⟩, -⟩
    · cases early.unfinished
    · exact ⟨refused, k, fails, report.2.2.2 k fails⟩
  · intro body d
    have refused : lint body = some d := by decide
    have report := lint_reports_first_fault (by decide) refused
    rcases report.1 with ⟨early, -⟩ | ⟨⟨k, fails⟩, -⟩
    · exact ⟨refused, early, report.2.2.1 (by simp [d])⟩
    · -- The text could go on as `[(A -> B)]`.
      refine absurd ⟨[⟨.name, "B", 7⟩, ⟨.closing .paren, ")", 8⟩, ⟨.closing .square, "]", 9⟩],
        ?_, ?_⟩ fails.not_viable <;> decide

end Token

end Sentential
