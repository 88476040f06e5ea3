import Sentential.Proofs.Parse.Flatten
import Sentential.Proofs.Parse.Reading

/-!
# Families of brackets do not matter

A group remembers its family only to compare it with that of the closing bracket. If the pairs of a
list of tokens are given other families, the reader goes through the same states, except for the
families on its stack: these are the new ones, in the order in which the pairs were opened. Nodes,
their numbers and their brackets stay the same.

## Main definitions

* `Token.Rebracketed` — the same words, with other families for the pairs of brackets
* `Reading.Regrouped` — the same state, with other families on the stack

## Main results

* `Reading.Regrouped.exists_shift` — one step keeps the relation
* `Reading.Regrouped.exists_reads` — and so does a run
* `Expr.parse_of_rebracketed` — tokens with other families have the same parse
-/

namespace Sentential

/-- Both lists have the same words, except that each pair of brackets has a family of its own in the
second one. The families are those of the pairs that are open at the start, the innermost first; all
of them are closed in the end. -/
inductive Token.Rebracketed : List Bracket → List Token → List Token → Prop
  | nil : Rebracketed [] [] []
  | plain {opened : List Bracket} {t t' : Token} {ts ts' : List Token}
      (notOpening : t.kind.isOpening = false) (notClosing : t.kind.isClosing = false)
      (word : t'.word = t.word) (rest : Rebracketed opened ts ts') :
      Rebracketed opened (t :: ts) (t' :: ts')
  | opening {opened : List Bracket} {t t' : Token} {ts ts' : List Token} {bracket family : Bracket}
      (hkind : t.kind = .opening bracket) (hkind' : t'.kind = .opening family)
      (rest : Rebracketed (family :: opened) ts ts') : Rebracketed opened (t :: ts) (t' :: ts')
  | closing {opened : List Bracket} {t t' : Token} {ts ts' : List Token} {bracket family : Bracket}
      (hkind : t.kind = .closing bracket) (hkind' : t'.kind = .closing family)
      (rest : Rebracketed opened ts ts') : Rebracketed (family :: opened) (t :: ts) (t' :: ts')

theorem Token.Rebracketed.length_eq {opened : List Bracket} {ts ts' : List Token}
    (rebracketed : Rebracketed opened ts ts') : ts'.length = ts.length := by
  induction rebracketed with
  | nil => rfl
  | plain _ _ _ _ ih | opening _ _ _ ih | closing _ _ _ ih => simp [ih]

/-- The frame without the family of a group. -/
def Frame.anyFamily : Frame → Frame
  | .negation => .negation
  | .left op e => .left op e
  | .group _ => .group .paren

namespace Reading

open Token (Rebracketed)

variable {opened : List Bracket} {s s' s₁ : Reading} {frames : List Frame} {nodes : Array Expr}
variable {t t' : Token} {ts ts' : List Token}

/-- The state without the families on its stack. -/
def anyFamily (s : Reading) : Reading := { s with frames := s.frames.map Frame.anyFamily }

/-- The second state is the first one, with the given families for its open groups. -/
structure Regrouped (opened : List Bracket) (s s' : Reading) : Prop where
  same : s'.anyFamily = s.anyFamily
  groups : openGroups s'.frames = opened

theorem regrouped_start : Regrouped [] start start := ⟨rfl, rfl⟩

theorem anyFamily_eq_iff {operand : Option Expr} :
    s'.anyFamily = anyFamily ⟨frames, operand, nodes⟩ ↔
      ∃ frames', s' = ⟨frames', operand, nodes⟩ ∧
        frames'.map Frame.anyFamily = frames.map Frame.anyFamily := by
  constructor
  · obtain ⟨frames', operand', nodes'⟩ := s'
    intro same
    obtain ⟨sameFrames, rfl, rfl⟩ := Reading.mk.inj same
    exact ⟨frames', rfl, sameFrames⟩
  · rintro ⟨frames', rfl, sameFrames⟩
    rw [anyFamily, anyFamily, sameFrames]

/-! ### Settling -/

theorem fold_anyFamily (next : Token.Kind) (frames : List Frame) (e : Expr)
    (nodes : Array Expr) :
    fold next (frames.map Frame.anyFamily) e nodes = (fold next frames e nodes).anyFamily := by
  fun_induction fold next frames e nodes with
  | case1 e nodes outer node ih =>
    rw [List.map_cons, Frame.anyFamily, fold]
    exact ih
  | case2 e nodes op l outer completed node ih =>
    rw [List.map_cons, Frame.anyFamily, fold, if_pos completed]
    exact ih
  | case3 e nodes op l outer completed =>
    rw [List.map_cons, Frame.anyFamily, fold, if_neg completed]
    rfl
  | case4 frames e nodes notNegation notLeft =>
    cases frames with
    | nil => rfl
    | cons frame outer =>
      cases frame with
      | negation => exact absurd rfl (notNegation outer)
      | left op l => exact absurd rfl (notLeft op l outer)
      | group bracket => rfl

/-- Settling never looks at a family. -/
theorem settle_anyFamily (s : Reading) (next : Token.Kind) :
    s.anyFamily.settle next = (s.settle next).anyFamily := by
  obtain ⟨frames, operand, nodes⟩ := s
  cases operand with
  | none => rfl
  | some e => exact fold_anyFamily next frames e nodes

theorem openGroups_settle (s : Reading) (next : Token.Kind) :
    openGroups (s.settle next).frames = openGroups s.frames := by
  obtain ⟨frames, operand, nodes⟩ := s
  cases operand with
  | none => rfl
  | some e =>
    obtain ⟨frames', e', nodes', folded, -, sameGroups⟩ := exists_fold next frames e nodes
    rw [settle_some, folded]
    exact sameGroups

/-- Of the next token it only counts what it completes. -/
theorem settle_congr {next next' : Token.Kind} (same : completes next' = completes next)
    (s : Reading) : s.settle next' = s.settle next := by
  obtain ⟨frames, operand, nodes⟩ := s
  cases operand with
  | none => rfl
  | some e =>
    rw [settle_some, settle_some]
    fun_induction fold next frames e nodes with
    | case1 e nodes outer node ih => rw [fold, ih]
    | case2 e nodes op l outer completed node ih => rw [fold, same, if_pos completed, ih]
    | case3 e nodes op l outer completed => rw [fold, same, if_neg completed]
    | case4 frames e nodes notNegation notLeft => rw [fold] <;> assumption

theorem Regrouped.settle {next next' : Token.Kind} (regrouped : Regrouped opened s s')
    (complete : completes next' = completes next) :
    Regrouped opened (s.settle next) (s'.settle next') where
  same := by
    rw [settle_congr complete, ← settle_anyFamily, regrouped.same, settle_anyFamily]
  groups := by rw [openGroups_settle, regrouped.groups]

/-! ### Steps and runs -/

/-- A token that is no bracket does the same in both states. -/
theorem Regrouped.exists_shift_plain (regrouped : Regrouped opened s s') (shift : Shift s t s₁)
    (notOpening : t.kind.isOpening = false) (notClosing : t.kind.isClosing = false)
    (word : t'.word = t.word) : ∃ s₁', Shift s' t' s₁' ∧ Regrouped opened s₁ s₁' := by
  have sameKind : t'.kind = t.kind := congrArg Token.Word.kind word
  obtain ⟨same, groups⟩ := regrouped
  cases shift with
  | name frames nodes hkind =>
    obtain ⟨frames', rfl, sameFrames⟩ := anyFamily_eq_iff.mp same
    have sameText := (Token.word_eq_name_iff.mp (word.trans
      (Token.word_eq_name_iff.mpr ⟨hkind, rfl⟩))).2
    refine ⟨_, .name frames' nodes (sameKind.trans hkind), ?_, groups⟩
    rw [sameText]
    exact anyFamily_eq_iff.mpr ⟨frames', rfl, sameFrames⟩
  | constant frames nodes hkind =>
    obtain ⟨frames', rfl, sameFrames⟩ := anyFamily_eq_iff.mp same
    exact ⟨_, .constant frames' nodes (sameKind.trans hkind),
      anyFamily_eq_iff.mpr ⟨frames', rfl, sameFrames⟩, groups⟩
  | negation frames nodes hkind =>
    obtain ⟨frames', rfl, sameFrames⟩ := anyFamily_eq_iff.mp same
    exact ⟨_, .negation frames' nodes (sameKind.trans hkind),
      anyFamily_eq_iff.mpr ⟨_, rfl, congrArg (Frame.negation :: ·) sameFrames⟩, groups⟩
  | binary frames e nodes hkind =>
    obtain ⟨frames', rfl, sameFrames⟩ := anyFamily_eq_iff.mp same
    exact ⟨_, .binary frames' e nodes (sameKind.trans hkind),
      anyFamily_eq_iff.mpr ⟨_, rfl, congrArg (Frame.left _ e :: ·) sameFrames⟩, groups⟩
  | opening _ _ hkind =>
    rw [hkind] at notOpening
    cases notOpening
  | closing _ _ _ hkind =>
    rw [hkind] at notClosing
    cases notClosing

/-- An opening bracket opens a group of the new family. -/
theorem Regrouped.exists_shift_opening {bracket family : Bracket}
    (regrouped : Regrouped opened s s') (shift : Shift s t s₁)
    (hkind : t.kind = .opening bracket) (hkind' : t'.kind = .opening family) :
    ∃ s₁', Shift s' t' s₁' ∧ Regrouped (family :: opened) s₁ s₁' := by
  obtain ⟨same, groups⟩ := regrouped
  cases shift with
  | opening frames nodes =>
    obtain ⟨frames', rfl, sameFrames⟩ := anyFamily_eq_iff.mp same
    exact ⟨_, .opening frames' nodes hkind',
      anyFamily_eq_iff.mpr ⟨_, rfl, congrArg (Frame.group .paren :: ·) sameFrames⟩,
      congrArg (family :: ·) groups⟩
  | name _ _ other | constant _ _ other | negation _ _ other | binary _ _ _ other
  | closing _ _ _ other =>
    rw [hkind] at other
    cases other

/-- A closing bracket of the family that was opened last closes that group. -/
theorem Regrouped.exists_shift_closing {bracket family : Bracket}
    (regrouped : Regrouped (family :: opened) s s') (shift : Shift s t s₁)
    (hkind : t.kind = .closing bracket) (hkind' : t'.kind = .closing family) :
    ∃ s₁', Shift s' t' s₁' ∧ Regrouped opened s₁ s₁' := by
  obtain ⟨same, groups⟩ := regrouped
  cases shift with
  | closing outer e nodes =>
    obtain ⟨frames', rfl, sameFrames⟩ := anyFamily_eq_iff.mp same
    obtain ⟨frame, outer', rfl, sameTop, sameOuter⟩ := List.map_eq_cons_iff.mp sameFrames
    cases frame with
    | negation | left => cases sameTop
    | group bracket' =>
      obtain ⟨rfl, sameGroups⟩ := List.cons.inj groups
      exact ⟨_, .closing outer' e nodes hkind', anyFamily_eq_iff.mpr ⟨outer', rfl, sameOuter⟩,
        sameGroups⟩
  | name _ _ other | constant _ _ other | negation _ _ other | opening _ _ other
  | binary _ _ _ other =>
    rw [hkind] at other
    cases other

/-- A run over some tokens is a run over the same tokens with other families. -/
theorem Regrouped.exists_reads (regrouped : Regrouped opened s s')
    (rebracketed : Rebracketed opened ts ts') (reads : s.Reads ts s₁) :
    ∃ s₁', s'.Reads ts' s₁' ∧ Regrouped [] s₁ s₁' := by
  induction rebracketed generalizing s s' with
  | nil =>
    cases reads
    exact ⟨s', .nil s', regrouped⟩
  | plain notOpening notClosing word _ ih =>
    obtain _ | ⟨shift, reads⟩ := reads
    have complete := congrArg (fun w : Token.Word => completes w.kind) word
    obtain ⟨s₂, shift', regrouped⟩ :=
      (regrouped.settle complete).exists_shift_plain shift notOpening notClosing word
    obtain ⟨s₁', reads', regrouped⟩ := ih regrouped reads
    exact ⟨s₁', .cons shift' reads', regrouped⟩
  | @opening _ t t' _ _ _ _ hkind hkind' _ ih =>
    obtain _ | ⟨shift, reads⟩ := reads
    have complete : completes t'.kind = completes t.kind := by
      rw [hkind, hkind']
      rfl
    obtain ⟨s₂, shift', regrouped⟩ :=
      (regrouped.settle complete).exists_shift_opening shift hkind hkind'
    obtain ⟨s₁', reads', regrouped⟩ := ih regrouped reads
    exact ⟨s₁', .cons shift' reads', regrouped⟩
  | @closing _ t t' _ _ _ _ hkind hkind' _ ih =>
    obtain _ | ⟨shift, reads⟩ := reads
    have complete : completes t'.kind = completes t.kind := by
      rw [hkind, hkind']
      rfl
    obtain ⟨s₂, shift', regrouped⟩ :=
      (regrouped.settle complete).exists_shift_closing shift hkind hkind'
    obtain ⟨s₁', reads', regrouped⟩ := ih regrouped reads
    exact ⟨s₁', .cons shift' reads', regrouped⟩

end Reading

namespace Expr

variable {body body' : List Token} {stop stop' : Token} {p : Parse}

/-- Tokens with other families have the same parse. -/
theorem parse_of_rebracketed (rebracketed : Token.Rebracketed [] body body')
    (unmarked : ∀ t ∈ body, t.isStop = false) (marked : stop.isStop = true)
    (marked' : stop'.isStop = true) (parsed : parse (body ++ [stop]) = .ok p) :
    (∀ t ∈ body', t.isStop = false) ∧ parse (body' ++ [stop']) = .ok p := by
  obtain ⟨s, reads, settled, index⟩ := (parse_append_eq_ok_iff unmarked marked).mp parsed
  obtain ⟨s', reads', regrouped⟩ := Reading.regrouped_start.exists_reads rebracketed reads
  refine ⟨reads'.isStop_eq_false, (parse_append_eq_ok_iff reads'.isStop_eq_false marked').mpr
    ⟨s', reads', ?_, index.trans rebracketed.length_eq.symm⟩⟩
  have same := (regrouped.settle (rfl : Reading.completes .stop = Reading.completes .stop)).same
  rw [settled] at same
  obtain ⟨frames', finished, sameFrames⟩ := Reading.anyFamily_eq_iff.mp same
  rw [finished, List.map_eq_nil_iff.mp sameFrames]

end Expr

end Sentential
