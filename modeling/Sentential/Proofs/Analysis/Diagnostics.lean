import Sentential.Analysis
import Sentential.Proofs.Parse.Acceptance
import Sentential.Proofs.Parse.Soundness
import Sentential.Proofs.Table.Rows
import Sentential.Proofs.Tableau.Decision
import Sentential.Proofs.Token.Coverage
import Sentential.Proofs.Token.Written

/-!
# What an analysis reports

A formula text is asked about its blanks, its characters, the order of its tokens and its variables,
in this order, and the first thing that is wrong is reported. Nothing else is: if the four checks
pass, the parser, the table, the map and the proof attempt all succeed, unless a limit on nesting is
hit. Whatever the limits are, they are hit by no expression that keeps within them. A proof attempt
alone reports the same as a whole analysis.

## Main definitions

* `Analysis.HitsLimit` — an outcome is due to a limit on nesting
* `Analysis.Diagnosed` — an outcome reports what is wrong with a text
* `Analysis.Spells` — a text passes all checks and is the writing of an expression
* `Analysis.Limited` — an outcome is due to a limit only if the expression exceeds it

## Main results

* `Analysis.readsTo_readExpr` — reading a text reports the first check that it does not pass
* `Analysis.diagnostics_exact` — an analysis and a proof attempt report exactly what is wrong
-/

namespace Sentential.Analysis

open Token (FirstStray lint tokenize)

variable {α : Type} {text : Option String} {s : String} {declared : List String} {e e' : Expr}
variable {d : Diagnostic} {pos : Nat} {c : Char} {limits : Limits}

/-- The outcome is due to a limit on the nesting of formulas or of the search for proofs. -/
def HitsLimit (r : Except AnalysisError α) : Prop :=
  r = .error (.diagnostic .nestingTooDeep) ∨ ∃ warning, r = .error (.searchLimit warning)

/-- There is no text, or it holds nothing but blanks. -/
def IsVoid (text : Option String) : Prop := ∀ s ∈ text, ∀ c ∈ s.toList, Text.isBlank c = true

/-- The outcome reports the first thing that is wrong with a text and the declared names. -/
structure Diagnosed (text : Option String) (declared : List String)
    (r : Except AnalysisError α) : Prop where
  /-- First, there must be something to read. -/
  empty_iff : r = .error (.diagnostic .emptyExpression) ↔ IsVoid text
  /-- Then, the first character that belongs to no token is reported. -/
  unknown_iff : ∀ s ∈ text, ¬ IsVoid text → ∀ pos c,
    r = .error (.diagnostic (.unknownSymbol c pos)) ↔ FirstStray s pos c
  /-- There is such a character if and only if the scan skips anything. -/
  skipped_iff : ∀ s ∈ text, ¬ IsVoid text →
    ((∃ pos c, r = .error (.diagnostic (.unknownSymbol c pos))) ↔ (Token.scan s).skipped ≠ [])
  /-- Then, what the linter finds is reported. -/
  syntactic : ∀ s ∈ text, ¬ IsVoid text → (Token.scan s).skipped = [] →
    ∀ d, lint (tokenize s) = some d → r = .error (.diagnostic d)
  /-- Then, the names in the text that are not declared are reported, in order. Without any, there
  is a result. -/
  declared : ∀ s ∈ text, ¬ IsVoid text → (Token.scan s).skipped = [] → lint (tokenize s) = none →
    ∃ names : List String, names.Pairwise (· < ·) ∧
      (∀ x, x ∈ names ↔ x ∈ Token.names (tokenize s) ∧ x ∉ declaredNames declared) ∧
      (names ≠ [] → r = .error (.diagnostic (.undeclared names))) ∧
      (names = [] → ∃ a, r = .ok a)

/-- The text passes all checks, and the parser makes the expression of it. -/
def Spells (text : Option String) (e : Expr) : Prop :=
  ∃ s ∈ text, ¬ IsVoid text ∧ (Token.scan s).skipped = [] ∧
    ∃ p, Expr.parseLinted (tokenize s) = .ok p ∧ p.root = e

/-- The outcome is due to a limit only if the expression of the text exceeds this limit. -/
structure Limited (limits : Limits) (text : Option String) (r : Except AnalysisError α) :
    Prop where
  /-- The expressions that are not admitted are refused for their nesting, and no others. -/
  deep_iff : r = .error (.diagnostic .nestingTooDeep) ↔ ∃ e, Spells text e ∧ limits.admits e = false
  /-- A search is given up only for an expression with more subformulas than splits may nest. -/
  large : ∀ warning, r = .error (.searchLimit warning) →
    ∃ e, Spells text e ∧ limits.admits e = true ∧ limits.splits < e.shape.size

/-! ### Reading -/

theorem isVoid_some_iff : IsVoid (some s) ↔ Text.isAllBlank s = true := by
  simp [IsVoid, Text.isAllBlank]

theorem exists_eq_some_of_not_isVoid (notVoid : ¬ IsVoid text) : ∃ s, text = some s := by
  cases text with
  | none => exact absurd (fun _ mem => by cases mem) notVoid
  | some s => exact ⟨s, rfl⟩

theorem isAllBlank_of_not_isVoid (notVoid : ¬ IsVoid (some s)) : Text.isAllBlank s = false := by
  rwa [isVoid_some_iff, Bool.not_eq_true] at notVoid

theorem spells_some_iff : Spells (some s) e ↔ Text.isAllBlank s = false ∧
    (Token.scan s).skipped = [] ∧ ∃ p, Expr.parseLinted (tokenize s) = .ok p ∧ p.root = e := by
  simp [Spells, isVoid_some_iff]

/-- A text spells at most one expression. -/
theorem Spells.unique (spells : Spells text e) (spells' : Spells text e') : e = e' := by
  obtain ⟨s, rfl, -, -, p, parsed, rfl⟩ := spells
  obtain ⟨_, ⟨⟩, -, -, p', parsed', rfl⟩ := spells'
  rw [parsed, Except.ok.injEq] at parsed'
  rw [parsed']

/-- Of a text that passes all checks, only the nesting is asked. -/
theorem readExpr_of_spells (spells : Spells text e) : readExpr text limits =
    if limits.admits e then .ok e else .error .nestingTooDeep := by
  obtain ⟨s, rfl, notVoid, clean, p, parsed, rfl⟩ := spells
  have visible := isAllBlank_of_not_isVoid notVoid
  rw [tokenize] at parsed
  simp only [readExpr, visible, clean, parsed]
  rfl

/-- The variables of an expression are the names in its text. -/
theorem vars_of_parse {p : Expr.Parse} (parsed : Expr.parse (tokenize s) = .ok p) :
    p.root.shape.vars = Token.names (tokenize s) := by
  obtain ⟨body, stop, cut, marked, unmarked⟩ := Token.exists_tokenize_eq s
  rw [cut] at parsed ⊢
  obtain ⟨-, family, words⟩ := Expr.spells_of_parse unmarked marked parsed
  have unnamed : stop.isName = false := by
    have isStop : stop.kind = .stop := of_decide_eq_true marked
    rw [Token.isName, isStop]
    rfl
  rw [← Expr.wordNames_flatten p.root family, words, Expr.wordNames_map_word, Token.names,
    Token.names, List.filter_append, List.filter_cons_of_neg (by simp [unnamed]), List.filter_nil,
    List.append_nil]

theorem parseLinted_eq_ok_iff {ts : List Token} {p : Expr.Parse} :
    Expr.parseLinted ts = .ok p ↔ lint ts = none ∧ Expr.parse ts = .ok p := by
  rw [Expr.parseLinted]
  cases lint ts with
  | some d => simp
  | none => cases Expr.parse ts <;> simp

/-- The variables of an expression that a text spells are the names in the text. -/
theorem Spells.vars_eq (spells : Spells (some s) e) :
    e.shape.vars = Token.names (tokenize s) := by
  obtain ⟨-, -, p, parsed, rfl⟩ := spells_some_iff.mp spells
  exact vars_of_parse (parseLinted_eq_ok_iff.mp parsed).2

theorem exists_parse_of_lint_eq_none (passed : lint (tokenize s) = none) :
    ∃ p, Expr.parse (tokenize s) = .ok p := by
  obtain ⟨body, stop, cut, marked, unmarked⟩ := Token.exists_tokenize_eq s
  rw [cut] at passed ⊢
  exact (Expr.lint_eq_none_iff unmarked marked).mp passed

/-- What reading a text comes to, by the first check that it does not pass. -/
inductive ReadsTo (limits : Limits) : Option String → Except Diagnostic Expr → Prop
  | void {text : Option String} (void : IsVoid text) :
      ReadsTo limits text (.error .emptyExpression)
  | stray {s : String} {pos : Nat} {c : Char} (notVoid : ¬ IsVoid (some s))
      (first : (Token.scan s).skipped.head? = some (pos, c)) :
      ReadsTo limits (some s) (.error (.unknownSymbol c pos))
  | fault {s : String} {d : Diagnostic} (notVoid : ¬ IsVoid (some s))
      (clean : (Token.scan s).skipped = []) (found : lint (tokenize s) = some d)
      (syntactic : d.isSyntactic = true) : ReadsTo limits (some s) (.error d)
  | deep {s : String} {e : Expr} (spells : Spells (some s) e)
      (refused : limits.admits e = false) : ReadsTo limits (some s) (.error .nestingTooDeep)
  | read {s : String} {e : Expr} (spells : Spells (some s) e)
      (admitted : limits.admits e = true) : ReadsTo limits (some s) (.ok e)

theorem readsTo_readExpr (limits : Limits) (text : Option String) :
    ReadsTo limits text (readExpr text limits) := by
  by_cases void : IsVoid text
  · have empty : readExpr text limits = .error .emptyExpression := by
      cases text with
      | none => rfl
      | some s => rw [readExpr, if_pos (isVoid_some_iff.mp void)]
    rw [empty]
    exact .void void
  obtain ⟨s, rfl⟩ := exists_eq_some_of_not_isVoid void
  have visible := isAllBlank_of_not_isVoid void
  cases clean : (Token.scan s).skipped with
  | cons stray others =>
    simp only [readExpr, visible, clean]
    exact .stray void (by rw [clean, List.head?_cons])
  | nil =>
    cases found : lint (tokenize s) with
    | some d =>
      have unread : readExpr (some s) limits = .error d := by
        rw [tokenize] at found
        simp only [readExpr, visible, clean, Expr.parseLinted, found]
        rfl
      rw [unread]
      exact .fault void clean found
        (Token.isSyntactic_of_lint (Token.exists_token_of_visible visible clean) found)
    | none =>
      -- The parser cannot fail any more, so that only the limit is left to be asked.
      obtain ⟨p, parsed⟩ := exists_parse_of_lint_eq_none found
      have spells : Spells (some s) p.root :=
        ⟨s, rfl, void, clean, p, parseLinted_eq_ok_iff.mpr ⟨found, parsed⟩, rfl⟩
      rw [readExpr_of_spells spells]
      cases admitted : limits.admits p.root with
      | false => exact .deep spells admitted
      | true => exact .read spells admitted

/-- A text is read if it spells an expression that is admitted. -/
theorem readExpr_eq_ok_iff :
    readExpr text limits = .ok e ↔ Spells text e ∧ limits.admits e = true := by
  constructor
  · intro read
    have reads := readsTo_readExpr limits text
    rw [read] at reads
    cases reads with
    | read spells admitted => exact ⟨spells, admitted⟩
  · rintro ⟨spells, admitted⟩
    rw [readExpr_of_spells spells, if_pos admitted]

/-- Exactly the expressions that are not admitted are refused for their nesting. -/
theorem readExpr_eq_nestingTooDeep_iff : readExpr text limits = .error .nestingTooDeep ↔
    ∃ e, Spells text e ∧ limits.admits e = false := by
  constructor
  · intro tooDeep
    have reads := readsTo_readExpr limits text
    rw [tooDeep] at reads
    cases reads with
    | fault _ _ _ syntactic => cases syntactic
    | deep spells refused => exact ⟨_, spells, refused⟩
  · rintro ⟨e, spells, refused⟩
    rw [readExpr_of_spells spells, refused]
    rfl

/-- The variables of an expression that is read are letters with digits. -/
theorem spellsName_of_readExpr (read : readExpr text limits = .ok e) :
    ∀ x ∈ e.shape.vars, Token.spellsName x = true := by
  obtain ⟨spells, -⟩ := readExpr_eq_ok_iff.mp read
  obtain ⟨s, rfl, -⟩ := id spells
  rw [spells.vars_eq]
  exact Token.spellsName_of_mem_names s

/-! ### Outcomes -/

section Outcomes

variable {r : Except AnalysisError α}

theorem diagnosed_of_isVoid (void : IsVoid text)
    (reported : r = .error (.diagnostic .emptyExpression)) : Diagnosed text declared r where
  empty_iff := iff_of_true reported void
  unknown_iff _ _ notVoid := absurd void notVoid
  skipped_iff _ _ notVoid := absurd void notVoid
  syntactic _ _ notVoid := absurd void notVoid
  declared _ _ notVoid := absurd void notVoid

theorem diagnosed_of_skipped (notVoid : ¬ IsVoid (some s))
    (first : (Token.scan s).skipped.head? = some (pos, c))
    (reported : r = .error (.diagnostic (.unknownSymbol c pos))) :
    Diagnosed (some s) declared r := by
  have skipped : (Token.scan s).skipped ≠ [] := by
    intro none
    rw [none] at first
    cases first
  refine
    { empty_iff := iff_of_false (by simp [reported]) notVoid
      unknown_iff := ?_, skipped_iff := ?_, syntactic := ?_, declared := ?_ } <;>
    rintro _ ⟨⟩ _
  · intro pos' c'
    rw [← Token.head?_skipped_iff, first, reported]
    simp [and_comm]
  · exact iff_of_true ⟨pos, c, reported⟩ skipped
  · exact fun clean => absurd clean skipped
  · exact fun clean => absurd clean skipped

/-- Without stray characters the outcome is not about one. -/
theorem diagnosed_of_clean (notVoid : ¬ IsVoid (some s)) (clean : (Token.scan s).skipped = [])
    (notEmpty : r ≠ .error (.diagnostic .emptyExpression))
    (notUnknown : ∀ pos c, r ≠ .error (.diagnostic (.unknownSymbol c pos)))
    (syntactic : ∀ d, lint (tokenize s) = some d → r = .error (.diagnostic d))
    (names : lint (tokenize s) = none → ∃ names : List String, names.Pairwise (· < ·) ∧
      (∀ x, x ∈ names ↔ x ∈ Token.names (tokenize s) ∧ x ∉ declaredNames declared) ∧
      (names ≠ [] → r = .error (.diagnostic (.undeclared names))) ∧
      (names = [] → ∃ a, r = .ok a)) : Diagnosed (some s) declared r := by
  refine
    { empty_iff := iff_of_false notEmpty notVoid
      unknown_iff := ?_, skipped_iff := ?_, syntactic := ?_, declared := ?_ } <;>
    rintro _ ⟨⟩ _
  · intro pos c
    refine iff_of_false (notUnknown pos c) fun first => ?_
    rw [← Token.head?_skipped_iff, clean] at first
    cases first
  · refine iff_of_false ?_ (absurd clean)
    rintro ⟨pos, c, reported⟩
    exact notUnknown pos c reported
  · exact fun _ => syntactic
  · exact fun _ => names

theorem diagnosed_of_lint (notVoid : ¬ IsVoid (some s)) (clean : (Token.scan s).skipped = [])
    (found : lint (tokenize s) = some d) (syntactic : d.isSyntactic = true)
    (reported : r = .error (.diagnostic d)) : Diagnosed (some s) declared r := by
  refine diagnosed_of_clean notVoid clean ?_ ?_ ?_ ?_
  · rw [reported]
    rintro ⟨⟩
    cases syntactic
  · rw [reported]
    rintro pos c ⟨⟩
    cases syntactic
  · intro d' found'
    rw [found, Option.some.injEq] at found'
    rw [reported, found']
  · intro passed
    rw [found] at passed
    cases passed

/-- Without any other fault, the names that are missing are reported. -/
theorem diagnosed_of_lint_eq_none {names : List String} (notVoid : ¬ IsVoid (some s))
    (clean : (Token.scan s).skipped = []) (passed : lint (tokenize s) = none)
    (sorted : names.Pairwise (· < ·))
    (missing : ∀ x, x ∈ names ↔ x ∈ Token.names (tokenize s) ∧ x ∉ declaredNames declared)
    (reported : names ≠ [] → r = .error (.diagnostic (.undeclared names)))
    (accepted : names = [] → ∃ a, r = .ok a) : Diagnosed (some s) declared r := by
  have outcome : r = .error (.diagnostic (.undeclared names)) ∨ ∃ a, r = .ok a := by
    by_cases none : names = []
    · exact Or.inr (accepted none)
    · exact Or.inl (reported none)
  refine diagnosed_of_clean notVoid clean ?_ ?_ ?_ ?_
  · rcases outcome with refused | ⟨a, result⟩ <;> simp [*]
  · rcases outcome with refused | ⟨a, result⟩ <;> simp [*]
  · intro d found
    rw [passed] at found
    cases found
  · intro _
    exact ⟨names, sorted, missing, reported, accepted⟩

end Outcomes

/-! ### Behind the checks -/

/-- What follows reading refuses the variables that are not declared, and nothing else. Only the
search for a proof of a large formula may be given up. -/
structure Gated (limits : Limits) (vars : List String) (k : Expr → Except AnalysisError α) :
    Prop where
  refuses : ∀ e : Expr, TruthTable.undeclared e.shape vars ≠ [] →
    k e = .error (.diagnostic (.undeclared (TruthTable.undeclared e.shape vars)))
  accepts : ∀ e : Expr, TruthTable.undeclared e.shape vars = [] →
    (∃ a, k e = .ok a) ∨
      limits.splits < e.shape.size ∧ ∃ warning, k e = .error (.searchLimit warning)

theorem attemptProof_eq (limits : Limits) (e : Expr) (vars : List String) (target : Target) :
    (∃ report, attemptProof e vars target limits = .ok report) ∨
      limits.splits < e.shape.size ∧
        ∃ warning, attemptProof e vars target limits = .error (.searchLimit warning) := by
  cases ended : Report.attemptWithin limits.splits e vars target with
  | some report => exact Or.inl ⟨report, by rw [attemptProof, ended]⟩
  | none =>
    refine Or.inr ⟨?_, _, by rw [attemptProof, ended]⟩
    -- As many splits as there are subformulas are always enough.
    by_contra small
    obtain ⟨report, ended'⟩ := Report.exists_attemptWithin vars target (Nat.le_of_not_lt small)
    rw [ended'] at ended
    cases ended

/-- Once all variables are declared, every part of an analysis succeeds except the search. -/
theorem gated_ofExpr (limits : Limits) (vars : List String) (settings : Settings)
    (target : Option Target) :
    Gated limits vars fun e => ofExpr e vars settings target limits where
  refuses e missing := by
    rw [ofExpr, TruthTable.build_eq_error missing]
    rfl
  accepts e none := by
    rw [ofExpr, TruthTable.build_eq_ok (TruthTable.undeclared_eq_nil_iff.mp none)]
    cases target with
    | none => exact Or.inl ⟨_, rfl⟩
    | some target =>
      rcases attemptProof_eq limits e vars target with
        ⟨report, ended⟩ | ⟨large, warning, stopped⟩
      · simp only [ended]
        exact Or.inl ⟨_, rfl⟩
      · simp only [stopped]
        exact Or.inr ⟨large, warning, rfl⟩

theorem gated_prove (limits : Limits) (vars : List String) (target : Target) :
    Gated limits vars fun e => do
      diagnose (TruthTable.requireDeclared e.shape vars)
      attemptProof e vars target limits where
  refuses e missing := by
    rw [TruthTable.requireDeclared_eq_error missing]
    rfl
  accepts e none := by
    rw [TruthTable.requireDeclared_eq_ok_iff.mpr (TruthTable.undeclared_eq_nil_iff.mp none)]
    exact attemptProof_eq limits e vars target

variable {k : Expr → Except AnalysisError α} {vars : List String}

theorem Gated.eq_error_iff (gated : Gated limits vars k) (e : Expr) :
    k e = .error (.diagnostic d) ↔ TruthTable.undeclared e.shape vars ≠ [] ∧
      d = .undeclared (TruthTable.undeclared e.shape vars) := by
  by_cases none : TruthTable.undeclared e.shape vars = []
  · rcases gated.accepts e none with ⟨a, result⟩ | ⟨-, warning, stopped⟩ <;> simp [*]
  · rw [gated.refuses e none]
    simp [none, eq_comm]

/-- A search is given up only for a large expression. -/
theorem Gated.splits_lt (gated : Gated limits vars k) {warning : Option String}
    (stopped : k e = .error (.searchLimit warning)) : limits.splits < e.shape.size := by
  by_cases none : TruthTable.undeclared e.shape vars = []
  · rcases gated.accepts e none with ⟨a, result⟩ | ⟨large, -⟩
    · rw [result] at stopped
      cases stopped
    · exact large
  · rw [gated.refuses e none] at stopped
    cases stopped

/-- Whatever follows reading, no limit is hit by an expression that keeps within it. -/
theorem Gated.limited (gated : Gated limits vars k) :
    Limited limits text (diagnose (readExpr text limits) >>= k) := by
  cases read : readExpr text limits with
  | error d =>
    -- Nothing follows, so it is reading that hit a limit, if anything did.
    refine ⟨?_, fun warning stopped => by cases stopped⟩
    rw [← readExpr_eq_nestingTooDeep_iff, read]
    simp [diagnose, bind, Except.bind]
  | ok e =>
    refine ⟨?_, fun warning stopped => ?_⟩
    · rw [← readExpr_eq_nestingTooDeep_iff, read]
      refine iff_of_false (fun deep => ?_) (by simp)
      obtain ⟨-, ⟨⟩⟩ := (gated.eq_error_iff e).mp deep
    · obtain ⟨spells, admitted⟩ := readExpr_eq_ok_iff.mp read
      exact ⟨e, spells, admitted, gated.splits_lt stopped⟩

theorem Limited.not_hitsLimit {r : Except AnalysisError α} (limited : Limited limits text r)
    (spells : Spells text e) (admitted : limits.admits e = true)
    (small : e.shape.size ≤ limits.splits) : ¬ HitsLimit r := by
  rintro (deep | ⟨warning, stopped⟩)
  · obtain ⟨e', spells', refused⟩ := limited.deep_iff.mp deep
    rw [spells'.unique spells, admitted] at refused
    cases refused
  · obtain ⟨e', spells', -, large⟩ := limited.large warning stopped
    rw [spells'.unique spells] at large
    omega

/-- An outcome behind the checks reports the first thing that is wrong. -/
theorem Gated.diagnosed (gated : Gated limits (declaredNames declared) k)
    (unlimited : ¬ HitsLimit (diagnose (readExpr text limits) >>= k)) :
    Diagnosed text declared (diagnose (readExpr text limits) >>= k) := by
  have reads := readsTo_readExpr limits text
  generalize readExpr text limits = x at reads unlimited ⊢
  cases reads with
  | void void => exact diagnosed_of_isVoid void rfl
  | stray notVoid first => exact diagnosed_of_skipped notVoid first rfl
  | fault notVoid clean found syntactic =>
    exact diagnosed_of_lint notVoid clean found syntactic rfl
  | deep _ _ => exact absurd (Or.inl rfl) unlimited
  | @read s e spells admitted =>
    have continued : (diagnose (.ok e) >>= k) = k e := rfl
    -- The text has passed the first three checks, so that only its names are left.
    obtain ⟨_, ⟨⟩, notVoid, clean, p, linted, -⟩ := id spells
    obtain ⟨passed, -⟩ := parseLinted_eq_ok_iff.mp linted
    rw [continued] at unlimited ⊢
    refine diagnosed_of_lint_eq_none notVoid clean passed (Token.pairwise_sortedNames _)
      (fun x => ?_) (gated.refuses e) fun none => ?_
    · rw [← spells.vars_eq]
      exact TruthTable.mem_undeclared
    · rcases gated.accepts e none with result | ⟨-, stopped⟩
      · exact result
      · exact absurd (Or.inr stopped) unlimited

/-- **Diagnostics are exact.** Unless a limit is hit, an analysis and a proof attempt report the
first thing that is wrong with a text and the declared names, and have a result if nothing is. A
limit, whatever it is, is hit only by an expression that exceeds it. In any case an analysis and a
proof attempt report the same. -/
theorem diagnostics_exact (limits : Limits) (text : Option String) (declared : List String)
    (settings : Settings) (target : Option Target) (goal : Target) :
    (¬ HitsLimit (run text declared settings target limits) →
      Diagnosed text declared (run text declared settings target limits)) ∧
    (¬ HitsLimit (prove text declared goal limits) →
      Diagnosed text declared (prove text declared goal limits)) ∧
    Limited limits text (run text declared settings target limits) ∧
    Limited limits text (prove text declared goal limits) ∧
    ∀ d, run text declared settings target limits = .error (.diagnostic d) ↔
      prove text declared goal limits = .error (.diagnostic d) := by
  have analysis := gated_ofExpr limits (declaredNames declared) settings target
  have attempt := gated_prove limits (declaredNames declared) goal
  refine ⟨analysis.diagnosed, attempt.diagnosed, analysis.limited, attempt.limited, fun d => ?_⟩
  rw [run, prove]
  cases readExpr text limits with
  | error d' => exact Iff.of_eq (by simp [diagnose, bind, Except.bind])
  | ok e => exact (analysis.eq_error_iff e).trans (attempt.eq_error_iff e).symm

theorem exists_readExpr_eq {f : Formula}
    (shape : (readExpr text limits).toOption.map Expr.shape = some f) :
    ∃ e, readExpr text limits = .ok e ∧ e.shape = f := by
  cases read : readExpr text limits with
  | error d =>
    rw [read] at shape
    cases shape
  | ok e =>
    rw [read] at shape
    exact ⟨e, rfl, Option.some.inj shape⟩

/-- Limits within which `p -> ~q0` barely is. -/
def narrowLimits : Limits where
  admits e := decide (e.nesting ≤ 2)
  splits := 4

theorem diagnostics_exact_implication :
    Diagnosed (some "p -> ~q0") [" q0 ", "p", "P"]
      (prove (some "p -> ~q0") [" q0 ", "p", "P"] .implication narrowLimits) ∧
    Diagnosed (some "p -> ~q0") ["Q"] (run (some "p -> ~q0") ["Q"] {} none narrowLimits) ∧
    Diagnosed none ["Q"] (run none ["Q"] {} (some .tautology)) := by
  have shape : (readExpr (some "p -> ~q0") narrowLimits).toOption.map Expr.shape =
      some (.binary .implies (.var "P") (.not (.var "Q0"))) := by decide +kernel
  obtain ⟨e, read, same⟩ := exists_readExpr_eq shape
  obtain ⟨spells, admitted⟩ := readExpr_eq_ok_iff.mp read
  have small : e.shape.size ≤ narrowLimits.splits := by
    rw [same]
    decide
  have exact := diagnostics_exact narrowLimits (some "p -> ~q0")
  obtain ⟨-, proved, -, fits, -⟩ := exact [" q0 ", "p", "P"] {} none .implication
  obtain ⟨analysed, -, fits', -⟩ := exact ["Q"] {} none .implication
  refine ⟨proved (fits.not_hitsLimit spells admitted small),
    analysed (fits'.not_hitsLimit spells admitted small),
    (diagnostics_exact .usual _ _ {} (some .tautology) .implication).1 ?_⟩
  rintro (deep | ⟨warning, stopped⟩)
  · cases deep
  · cases stopped

end Sentential.Analysis
