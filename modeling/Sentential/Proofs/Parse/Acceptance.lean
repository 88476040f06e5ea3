import Sentential.Analysis
import Sentential.Proofs.Parse.Reading
import Sentential.Proofs.Token.Lint
import Sentential.Proofs.Token.Scan

/-!
# The linter and the parser accept the same tokens

The linter keeps the previous token and the open brackets, the parser its frames and an operand.
Between any two tokens the brackets of the one are the open groups of the other, and the parser has
an operand exactly when the previous token ends one. The next token passes the one if and only if it
passes the other, and both states stay in this relation; so the two accept the same lists. Frames
other than open groups need not be compared: the linter keeps nothing of them, and they never make
the parser refuse a token.

## Main definitions

* `Reading.Tracks` — the relation between the two states

## Main results

* `Reading.Tracks.shift`, `Reading.Tracks.exists_shift` — a step of the one is a step of the other
* `Expr.lint_eq_none_iff` — the linter passes what the parser parses
* `Expr.lint_guards_parse` — so no message of the parser is ever seen
-/

namespace Sentential

open Token (Follows lintStep lintEnd lintFrom lint)

namespace Reading

variable {previous : Option Token} {opened opened' : List Token} {s s₁ : Reading} {t : Token}
variable {next : Token.Kind} {ts : List Token}

/-- The linter and the parser may have read the same tokens. -/
structure Tracks (previous : Option Token) (opened : List Token) (s : Reading) : Prop where
  groups : opened.map Token.kind = (openGroups s.frames).map .opening
  operand : s.operand.isSome = true ↔ ∃ p ∈ previous, p.kind.isEnding = true
  inside : ∀ p ∈ previous, p.kind.isOpening = true → opened ≠ []
  outside : previous = none → opened = []
  unmarked : ∀ p ∈ previous, p.kind ≠ .stop

theorem tracks_start : Tracks none [] start where
  groups := rfl
  operand := by simp [start]
  inside := by simp
  outside _ := rfl
  unmarked := by simp

/-- Settling is invisible to the linter. -/
theorem Tracks.settle (tracks : Tracks previous opened s) (next : Token.Kind) :
    Tracks previous opened (s.settle next) := by
  obtain ⟨frames, operand, nodes⟩ := s
  cases operand with
  | none => exact tracks
  | some e =>
    obtain ⟨frames', e', nodes', folded, -, sameGroups⟩ := exists_fold next frames e nodes
    rw [settle_some, folded]
    refine ⟨?_, tracks.operand, tracks.inside, tracks.outside, tracks.unmarked⟩
    rw [sameGroups]
    exact tracks.groups

/-- Where no operand is complete, none has just ended. -/
theorem Tracks.apart (tracks : Tracks previous opened s) (waiting : s.operand = none) :
    ∀ p ∈ previous, p.kind.isEnding = false := by
  intro p before
  refine Bool.eq_false_iff.mpr fun ending => ?_
  have complete := tracks.operand.mpr ⟨p, before, ending⟩
  rw [waiting] at complete
  cases complete

/-- A complete operand stands behind a token that neither is an operator nor opens a group. -/
theorem Tracks.exists_previous {e : Expr} (tracks : Tracks previous opened s)
    (complete : s.operand = some e) :
    ∃ p, previous = some p ∧ p.kind.isOperator = false ∧ p.kind.isOpening = false := by
  obtain ⟨p, before, ending⟩ := tracks.operand.mp (Option.isSome_iff_exists.mpr ⟨e, complete⟩)
  exact ⟨p, before, (Token.Kind.isEnding_iff (tracks.unmarked p before)).mp ending⟩

/-- Behind such a token the next one finds an operand, inside the same open groups. -/
theorem Tracks.exists_settle {p : Token} (tracks : Tracks previous opened s)
    (before : previous = some p) (notOperator : p.kind.isOperator = false)
    (notOpening : p.kind.isOpening = false) (next : Token.Kind) :
    ∃ frames e nodes, s.settle next = ⟨frames, some e, nodes⟩ ∧ Settled next frames ∧
      opened.map Token.kind = (openGroups frames).map .opening := by
  have ending := (Token.Kind.isEnding_iff (tracks.unmarked p before)).mpr ⟨notOperator, notOpening⟩
  obtain ⟨e, complete⟩ := Option.isSome_iff_exists.mp (tracks.operand.mpr ⟨p, before, ending⟩)
  obtain ⟨frames, operand, nodes⟩ := s
  obtain rfl : operand = some e := complete
  obtain ⟨frames', e', nodes', folded, settled, sameGroups⟩ := exists_fold next frames e nodes
  refine ⟨frames', e', nodes', folded, settled, ?_⟩
  rw [sameGroups]
  exact tracks.groups

/-! ### One token -/

/-- Behind a token, only what it is itself counts. -/
theorem tracks_after (groups : opened.map Token.kind = (openGroups s.frames).map .opening)
    (operand : s.operand.isSome = t.kind.isEnding)
    (inside : t.kind.isOpening = true → opened ≠ []) (unmarked : t.kind ≠ .stop) :
    Tracks (some t) opened s where
  groups := groups
  operand := by simp [operand]
  inside := by
    rintro p ⟨⟩
    exact inside
  outside := by simp
  unmarked := by
    rintro p ⟨⟩
    exact unmarked

/-- What the parser reads, the linter passes. -/
theorem Tracks.shift (tracks : Tracks previous opened s) (shift : Shift s t s₁) :
    ∃ opened', Follows previous opened t opened' ∧ Tracks (some t) opened' s₁ := by
  cases shift with
  | name _ _ hkind | constant _ _ hkind | negation _ _ hkind =>
    have starting : t.kind.isStarting = true := by rw [hkind]; rfl
    have notOpening : t.kind.isOpening = false := by rw [hkind]; rfl
    exact ⟨opened, .start starting notOpening (tracks.apart rfl),
      tracks_after tracks.groups (by rw [hkind]; rfl) (by simp [notOpening]) (by simp [hkind])⟩
  | @opening _ _ _ bracket hkind =>
    have groups : (t :: opened).map Token.kind = .opening bracket :: opened.map Token.kind := by
      rw [List.map_cons, hkind]
    rw [tracks.groups] at groups
    exact ⟨t :: opened, .opening (by rw [hkind]; rfl) (tracks.apart rfl),
      tracks_after groups (by rw [hkind]; rfl) (fun _ => List.cons_ne_nil t opened)
        (by simp [hkind])⟩
  | binary _ _ _ hkind =>
    obtain ⟨p, before, notOperator, notOpening⟩ := tracks.exists_previous rfl
    exact ⟨opened, .binary hkind before notOperator notOpening,
      tracks_after tracks.groups (by rw [hkind]; rfl) (by simp [hkind, Token.Kind.isOpening])
        (by simp [hkind])⟩
  | closing _ _ _ hkind =>
    obtain ⟨p, before, notOperator, notOpening⟩ := tracks.exists_previous rfl
    obtain ⟨opener, outer, innermost, family, groups⟩ := List.map_eq_cons_iff.mp tracks.groups
    have complete : ∀ p' ∈ previous, p'.kind.isOpening = false ∧ p'.kind.isOperator = false := by
      intro p' mem
      cases before.symm.trans mem
      exact ⟨notOpening, notOperator⟩
    exact ⟨outer, .closing hkind innermost family complete,
      tracks_after groups (by rw [hkind]; rfl) (by simp [hkind, Token.Kind.isOpening])
        (by simp [hkind])⟩

/-- What the linter passes, the parser reads. -/
theorem Tracks.exists_shift (tracks : Tracks previous opened s)
    (follows : Follows previous opened t opened') (unmarked : t.kind ≠ .stop) :
    ∃ s₁, Shift (s.settle t.kind) t s₁ := by
  cases follows with
  | start _ _ apart | opening _ apart =>
    obtain ⟨frames, operand, nodes⟩ := s
    have waiting : operand = none := by
      refine Option.not_isSome_iff_eq_none.mp fun complete => ?_
      obtain ⟨p, before, ending⟩ := tracks.operand.mp complete
      rw [apart p before] at ending
      cases ending
    subst waiting
    rw [settle_none]
    cases hkind : t.kind with
    | name => exact ⟨_, .name frames nodes hkind⟩
    | constant value => exact ⟨_, .constant frames nodes hkind⟩
    | negation => exact ⟨_, .negation frames nodes hkind⟩
    | opening bracket => exact ⟨_, .opening frames nodes hkind⟩
    | binary | closing | stop => simp_all [Token.Kind.isStarting, Token.Kind.isOpening]
  | binary hkind before notOperator notOpening =>
    obtain ⟨frames, e, nodes, settle, -, -⟩ :=
      tracks.exists_settle before notOperator notOpening t.kind
    rw [settle]
    exact ⟨_, .binary frames e nodes hkind⟩
  | @closing bracket opener outer hkind innermost family complete =>
    obtain ⟨p, before⟩ : ∃ p, previous = some p := by
      refine Option.ne_none_iff_exists'.mp fun missing => ?_
      rw [tracks.outside missing] at innermost
      cases innermost
    obtain ⟨notOpening, notOperator⟩ := complete p before
    obtain ⟨frames, e, nodes, settle, settled, groups⟩ :=
      tracks.exists_settle before notOperator notOpening t.kind
    rw [settle]
    rw [innermost, List.map_cons, family] at groups
    -- The innermost open group is the top frame, since the bracket completes all others.
    rcases eq_nil_or_group_of_settled (by rw [hkind]; exact fun _ => rfl) settled with
      rfl | ⟨bracket', outer', rfl⟩
    · cases groups
    · obtain ⟨⟨rfl⟩, -⟩ := List.cons.inj groups
      exact ⟨_, .closing outer' e nodes hkind⟩
  | stop hkind => exact absurd hkind unmarked

/-- The tokens may end for the linter if and only if they may for the parser. -/
theorem Tracks.lintEnd_eq_none_iff {p : Token} (tracks : Tracks (some p) opened s) :
    lintEnd (some p) opened = none ↔ ∃ e nodes, s.settle .stop = ⟨[], some e, nodes⟩ := by
  rw [Token.lintEnd_eq_none_iff]
  constructor
  · rintro ⟨notOperator, rfl⟩
    have notOpening : p.kind.isOpening = false :=
      Bool.eq_false_iff.mpr fun opening => tracks.inside p rfl opening rfl
    obtain ⟨frames, e, nodes, settle, settled, groups⟩ :=
      tracks.exists_settle rfl (notOperator p rfl) notOpening .stop
    rcases eq_nil_or_group_of_settled (fun _ => rfl) settled with rfl | ⟨bracket, outer, rfl⟩
    · exact ⟨e, nodes, settle⟩
    · cases groups
  · rintro ⟨e, nodes, settled⟩
    have after := tracks.settle .stop
    rw [settled] at after
    obtain ⟨_, ⟨⟩, notOperator, -⟩ := after.exists_previous rfl
    refine ⟨?_, List.map_eq_nil_iff.mp after.groups⟩
    rintro _ ⟨⟩
    exact notOperator

/-! ### All tokens -/

/-- From related states, the linter passes the rest if and only if the parser can read it and then
finish. -/
theorem Tracks.lintFrom_eq_none_iff (tracks : Tracks previous opened s)
    (unmarked : ∀ t ∈ ts, t.kind ≠ .stop) (begun : previous ≠ none ∨ ts ≠ []) :
    lintFrom previous opened ts = none ↔
      ∃ s' e nodes, s.Reads ts s' ∧ s'.settle .stop = ⟨[], some e, nodes⟩ := by
  induction ts generalizing previous opened s with
  | nil =>
    obtain ⟨p, rfl⟩ := Option.ne_none_iff_exists'.mp (begun.resolve_right fun more => more rfl)
    rw [lintFrom, tracks.lintEnd_eq_none_iff]
    constructor
    · rintro ⟨e, nodes, settled⟩
      exact ⟨s, e, nodes, .nil s, settled⟩
    · rintro ⟨s', e, nodes, ⟨⟩, settled⟩
      exact ⟨e, nodes, settled⟩
  | cons t ts ih =>
    rw [List.forall_mem_cons] at unmarked
    constructor
    · intro passed
      rw [lintFrom] at passed
      split at passed
      · cases passed
      · rename_i opened₁ step
        have follows := Token.lintStep_eq_ok_iff.mp step
        obtain ⟨s₁, shift⟩ := tracks.exists_shift follows unmarked.1
        -- The linter's step is the only one that matches the parser's, so the relation is kept.
        obtain ⟨opened₂, follows₂, after⟩ := (tracks.settle t.kind).shift shift
        have same := step.symm.trans (Token.lintStep_eq_ok_iff.mpr follows₂)
        cases same
        obtain ⟨s', e, nodes, reads, settled⟩ :=
          (ih after unmarked.2 (Or.inl (Option.some_ne_none t))).mp passed
        exact ⟨s', e, nodes, .cons shift reads, settled⟩
    · rintro ⟨s', e, nodes, reads, settled⟩
      cases reads with
      | cons shift reads =>
        obtain ⟨opened₁, follows, after⟩ := (tracks.settle t.kind).shift shift
        rw [lintFrom, Token.lintStep_eq_ok_iff.mpr follows]
        exact (ih after unmarked.2 (Or.inl (Option.some_ne_none t))).mpr
          ⟨s', e, nodes, reads, settled⟩

end Reading

namespace Expr

variable {body ts : List Token} {stop : Token} {d : Diagnostic}

theorem lint_append (unmarked : ∀ t ∈ body, t.isStop = false) (marked : stop.isStop = true)
    (nonempty : body ≠ []) : lint (body ++ [stop]) = lintFrom none [] body := by
  rw [Token.lint_append_eq unmarked nonempty, List.filter_cons_of_neg (by simp [marked]),
    List.filter_nil, List.append_nil]

/-- The linter passes what the parser parses. -/
theorem lint_eq_none_iff (unmarked : ∀ t ∈ body, t.isStop = false) (marked : stop.isStop = true) :
    lint (body ++ [stop]) = none ↔ ∃ p, parse (body ++ [stop]) = .ok p := by
  simp only [parse_append_eq_ok_iff unmarked marked]
  by_cases nonempty : body = []
  · subst nonempty
    constructor
    · intro passed
      simp [lint, marked] at passed
    · rintro ⟨p, s, ⟨⟩, settled, -⟩
      cases settled
  · have kinds : ∀ t ∈ body, t.kind ≠ .stop := fun t mem => of_decide_eq_false (unmarked t mem)
    rw [lint_append unmarked marked nonempty,
      Reading.tracks_start.lintFrom_eq_none_iff kinds (Or.inr nonempty)]
    constructor
    · rintro ⟨s, e, nodes, reads, settled⟩
      exact ⟨⟨e, nodes, body.length⟩, s, reads, settled, rfl⟩
    · rintro ⟨p, s, reads, settled, -⟩
      exact ⟨s, p.root, p.nodes, reads, settled⟩

/-- Tokens with one end mark, their last, are refused by the linter or not at all. -/
theorem lint_of_parseLinted (unmarked : ∀ t ∈ body, t.isStop = false)
    (marked : stop.isStop = true) (refused : parseLinted (body ++ [stop]) = .error d) :
    lint (body ++ [stop]) = some d := by
  unfold parseLinted at refused
  split at refused
  · rename_i found
    cases refused
    exact found
  · rename_i passed
    obtain ⟨p, parsed⟩ := (lint_eq_none_iff unmarked marked).mp passed
    rw [parsed] at refused
    cases refused

theorem code_of_parseText {s : String} (refused : parseText s = .error d) :
    d.code ≠ "ParseFailure" := by
  obtain ⟨body, stop, cut, marked, unmarked⟩ := Token.exists_tokenize_eq s
  rw [parseText, cut] at refused
  exact Token.code_of_lint (lint_of_parseLinted unmarked marked refused)

theorem code_of_ofText {s : String} (refused : ofText s = .error d) :
    d.code ≠ "ParseFailure" := by
  unfold ofText at refused
  split at refused
  · cases refused
  · rename_i found
    cases refused
    exact code_of_parseText found

end Expr

theorem Analysis.code_of_readExpr {text : Option String} {limits : Limits} {d : Diagnostic}
    (refused : Analysis.readExpr text limits = .error d) : d.code ≠ "ParseFailure" := by
  cases text with
  | none =>
    cases refused
    simp [Diagnostic.code]
  | some s =>
    simp only [Analysis.readExpr] at refused
    split at refused
    · cases refused
      simp [Diagnostic.code]
    · split at refused
      · cases refused
        simp [Diagnostic.code]
      · split at refused
        · rename_i found
          cases refused
          exact Expr.code_of_parseText found
        · split at refused <;> cases refused
          simp [Diagnostic.code]

/-- **The linter guards the parser.** On every list of tokens with one end mark, its last token, the
linter finds nothing wrong if and only if the parser returns an expression. So neither reading a
formula text nor checking one for analysis ever ends with a failure of the parser itself. -/
theorem Expr.lint_guards_parse :
    (∀ (body : List Token) (stop : Token), (∀ t ∈ body, t.isStop = false) → stop.isStop = true →
      (lint (body ++ [stop]) = none ↔ ∃ p, parse (body ++ [stop]) = .ok p)) ∧
    (∀ (text : String) (d : Diagnostic), ofText text = .error d → d.code ≠ "ParseFailure") ∧
    (∀ (text : Option String) (limits : Limits) (d : Diagnostic),
      Analysis.readExpr text limits = .error d → d.code ≠ "ParseFailure") :=
  ⟨fun _ _ unmarked marked => lint_eq_none_iff unmarked marked,
    fun _ _ refused => code_of_ofText refused,
    fun _ _ _ refused => Analysis.code_of_readExpr refused⟩

/-- The linter passes `[A -> ~(1)]`, so it is parsed; it refuses `)`. -/
theorem Expr.lint_guards_parse_unmatchedCloser :
    (∃ p, parse ([⟨.opening .square, "[", 0⟩, ⟨.name, "A", 1⟩, ⟨.binary .implies, "->", 3⟩,
      ⟨.negation, "~", 6⟩, ⟨.opening .paren, "(", 7⟩, ⟨.constant true, "1", 8⟩,
      ⟨.closing .paren, ")", 9⟩, ⟨.closing .square, "]", 10⟩] ++ [⟨.stop, "", 11⟩]) = .ok p) ∧
    (∃ d, ofText ")" = .error d ∧ d.code ≠ "ParseFailure") ∧
    (∃ d, Analysis.readExpr (some ")") = .error d ∧ d.code ≠ "ParseFailure") := by
  have cut : Token.scan ")" = ⟨[⟨.closing .paren, ")", 0⟩, ⟨.stop, "", 1⟩], []⟩ := by
    have normal : (Token.normalize ")").toList = [')'] := by decide
    have front : Token.piece ')' [] = (.token (.closing .paren), 0) := by decide
    rw [Token.scan, normal, Token.scanFrom_of_token 0 front, List.drop_nil, Token.scanFrom_nil]
    rfl
  have refused : ofText ")" = .error (.unmatchedCloser ⟨.closing .paren, ")", 0⟩) := by
    rw [ofText, parseText, Token.tokenize, cut]
    rfl
  have unread : Analysis.readExpr (some ")") =
      .error (.unmatchedCloser ⟨.closing .paren, ")", 0⟩) := by
    have visible : Text.isAllBlank ")" = false := by decide
    simp only [Analysis.readExpr, visible, cut]
    rfl
  exact ⟨(lint_guards_parse.1 _ ⟨.stop, "", 11⟩ (by decide) rfl).mp (by decide),
    ⟨_, refused, lint_guards_parse.2.1 _ _ refused⟩,
    ⟨_, unread, lint_guards_parse.2.2 _ _ _ unread⟩⟩

end Sentential
