import Sentential.Proofs.Parse.Flatten
import Sentential.Proofs.Parse.Reading

/-!
# What is parsed was written

The frames and the operand of a state, flattened from the outermost frame inwards, are the words
read so far. A settling moves words from the frames into the operand and keeps their order; a step
adds its own word at the end. When the end mark is reached there are no frames left, so the words
are those of the expression.

That the expression is well bracketed follows from the same induction. A left operand is put on the
stack by a connective that had completed its root, so it binds at least as tightly; a right operand
is completed under a connective that did not complete the one on the stack, so it binds tighter.

## Main definitions

* `Reading.Admits` — a connective may stand bare inside the frames
* `Reading.Framed` — the words of frames, and the brackets that they need
* `Reading.Held` — the words of frames with an operand inside
* `Reading.Spelled` — the words that a state has read

## Main results

* `Reading.Spelled.shift` — a step adds its word
* `Expr.spells_of_parse` — a parsed expression is well bracketed, and its words are the tokens
-/

namespace Sentential

open Token (Word)

namespace Reading

variable {s s₁ : Reading} {t : Token} {ts : List Token} {ws : List Word}
variable {frames outer : List Frame} {e l : Expr} {nodes : Array Expr} {next : Token.Kind}
variable {op : Connective} {bare : Option Connective}

/-- An operand with this connective at its bare root may stand inside the frames: they do not
complete the operand before its connective is read. -/
def Admits (frames : List Frame) (bare : Option Connective) : Prop :=
  match frames with
  | .negation :: _ => bare = none
  | .left op _ :: _ => ∀ inner ∈ bare, op.strength < inner.strength
  | _ => True

theorem admits_none (frames : List Frame) : Admits frames none := by
  match frames with
  | .negation :: _ => rfl
  | .left op l :: _ => exact fun inner mem => absurd mem (Option.not_mem_none inner)
  | [] | .group _ :: _ => trivial

/-- A connective may stand where it completes nothing. -/
theorem admits_some_iff : Admits frames (some op) ↔ Settled (.binary op) frames := by
  match frames with
  | [] | .group _ :: _ => exact Iff.rfl
  | .negation :: _ => simp [Admits, Settled]
  | .left op' l :: _ => simp [Admits, Settled, completes]

/-- The words of frames, the outermost first, where every left operand binds tightly enough. -/
inductive Framed : List Frame → List Word → Prop
  | nil : Framed [] []
  | negation {outer : List Frame} {ws : List Word} (framed : Framed outer ws) :
      Framed (.negation :: outer) (ws ++ [⟨.negation, ""⟩])
  | left {outer : List Frame} {op : Connective} {l : Expr} {ws ws' : List Word}
      (framed : Framed outer ws) (admits : Admits outer (some op)) (spelled : l.Spells ws')
      (wellBracketed : l.WellBracketed)
      (tight : ∀ inner ∈ l.bareConnective?, op.strength ≤ inner.strength) :
      Framed (.left op l :: outer) (ws ++ ws' ++ [⟨.binary op, ""⟩])
  | group {outer : List Frame} {ws : List Word} (bracket : Bracket) (framed : Framed outer ws) :
      Framed (.group bracket :: outer) (ws ++ [⟨.opening bracket, ""⟩])

/-- The words of frames and of the operand inside them, which may stand there. -/
structure Held (frames : List Frame) (e : Expr) (ws : List Word) : Prop where
  spelled : ∃ front back, Framed frames front ∧ e.Spells back ∧ ws = front ++ back
  wellBracketed : e.WellBracketed
  admitted : Admits frames e.bareConnective?
  nonneg : 0 ≤ e.mark.brackets

/-- The words of a state that is settled for the next token. -/
def HeldFor (next : Token.Kind) (s : Reading) (ws : List Word) : Prop :=
  ∃ e ∈ s.operand, Held s.frames e ws ∧ ∀ inner ∈ e.bareConnective?, completes next inner = true

/-- The words that a state has read. -/
def Spelled (s : Reading) (ws : List Word) : Prop :=
  match s.operand with
  | none => Framed s.frames ws
  | some e => Held s.frames e ws ∧ e.bareConnective? = none

/-! ### Settling keeps the words -/

/-- An operand without a bare connective is complete before any token. -/
theorem completes_of_bare (bare : e.bareConnective? = none) :
    ∀ inner ∈ e.bareConnective?, completes next inner = true := by
  intro inner mem
  rw [bare] at mem
  exact absurd mem (Option.not_mem_none inner)

theorem Held.completeNegation (id : Int) (held : Held (.negation :: outer) e ws) :
    Held outer (.not ⟨id, 0⟩ e) ws := by
  obtain ⟨_, back, framed, spelled, rfl⟩ := held.spelled
  cases framed with
  | @negation _ front framed =>
    refine ⟨⟨front, _, framed, spelled.not id, ?_⟩, ⟨held.admitted, held.wellBracketed⟩,
      admits_none outer, Int.le_refl 0⟩
    rw [List.append_assoc, List.singleton_append]

theorem Held.completeLeft (id : Int) (held : Held (.left op l :: outer) e ws) :
    Held outer (.binary ⟨id, 0⟩ op l e) ws := by
  obtain ⟨_, back, framed, spelled, rfl⟩ := held.spelled
  cases framed with
  | @left _ _ _ front middle framed admits spelledLeft wellBracketed tight =>
    refine ⟨⟨front, _, framed, spelledLeft.binary id op spelled, ?_⟩,
      ⟨tight, held.admitted, wellBracketed, held.wellBracketed⟩, admits, Int.le_refl 0⟩
    simp only [List.append_assoc, List.singleton_append]

theorem heldFor_fold (held : Held frames e ws)
    (complete : ∀ inner ∈ e.bareConnective?, completes next inner = true) :
    HeldFor next (fold next frames e nodes) ws := by
  -- Along the recursion the operand grows by one frame, and the words stay where they are.
  fun_induction fold next frames e nodes with
  | case1 e nodes outer node ih =>
    exact ih (held.completeNegation _) (completes_of_bare rfl)
  | case2 e nodes op l outer completed node ih =>
    refine ih (held.completeLeft _) ?_
    rintro inner ⟨⟩
    exact completed
  | case3 | case4 => exact ⟨_, rfl, held, complete⟩

/-! ### A step adds its word -/

theorem Spelled.settle (spelled : s.Spelled ws) (operand : s.operand = some e)
    (next : Token.Kind) : HeldFor next (s.settle next) ws := by
  obtain ⟨frames, _, nodes⟩ := s
  obtain rfl : _ = some e := operand
  obtain ⟨held, bare⟩ := spelled
  exact heldFor_fold held (completes_of_bare bare)

/-- An operand without a bare connective may stand inside any frames. -/
theorem Framed.operand {front back : List Word} (framed : Framed frames front)
    (spelled : e.Spells back) (wellBracketed : e.WellBracketed) (bare : e.bareConnective? = none)
    (nonneg : 0 ≤ e.mark.brackets) (nodes : Array Expr) :
    Spelled ⟨frames, some e, nodes⟩ (front ++ back) := by
  refine ⟨⟨⟨front, back, framed, spelled, rfl⟩, wellBracketed, ?_, nonneg⟩, bare⟩
  rw [bare]
  exact admits_none frames

theorem Held.openLeft (held : Held frames e ws) (settled : Settled (.binary op) frames)
    (complete : ∀ inner ∈ e.bareConnective?, completes (.binary op) inner = true) :
    Framed (.left op e :: frames) (ws ++ [⟨.binary op, ""⟩]) := by
  obtain ⟨front, back, framed, spelled, rfl⟩ := held.spelled
  refine .left framed (admits_some_iff.mpr settled) spelled held.wellBracketed fun inner mem => ?_
  simpa [completes] using complete inner mem

theorem Held.close {bracket : Bracket} (held : Held (.group bracket :: outer) e ws) :
    (close outer e nodes).Spelled (ws ++ [⟨.closing bracket, ""⟩]) := by
  obtain ⟨_, back, framed, spelled, rfl⟩ := held.spelled
  have grouped : 0 < e.mark.brackets + 1 := Int.lt_add_one_of_le held.nonneg
  cases framed with
  | @group _ front _ framed =>
    have closed := framed.operand (spelled.close bracket held.nonneg)
      ((Expr.wellBracketed_withMark _ e).mpr held.wellBracketed)
      (Expr.bareConnective?_of_grouped (by rw [Expr.mark_withMark]; exact grouped))
      (by rw [Expr.mark_withMark]; exact Int.le_of_lt grouped) (Reading.close outer e nodes).nodes
    rw [List.append_assoc, List.append_assoc, List.singleton_append]
    exact closed

/-- A step adds the word of its token. -/
theorem Spelled.shift (spelled : s.Spelled ws) (shift : Shift (s.settle t.kind) t s₁) :
    s₁.Spelled (ws ++ [t.word]) := by
  obtain ⟨frames, operand, nodes⟩ := s
  cases operand with
  | none =>
    rw [settle_none] at shift
    have framed : Framed frames ws := spelled
    cases shift with
    | name _ _ hkind =>
      rw [Token.word_eq_name_iff.mpr ⟨hkind, rfl⟩]
      exact framed.operand (Expr.spells_var _ _) trivial rfl (Int.le_refl 0) _
    | constant _ _ hkind =>
      rw [(Token.word_eq_iff (by simp)).mpr hkind]
      exact framed.operand (Expr.spells_const _ _) trivial rfl (Int.le_refl 0) _
    | negation _ _ hkind =>
      rw [(Token.word_eq_iff (by simp)).mpr hkind]
      exact .negation framed
    | opening _ _ hkind =>
      rw [(Token.word_eq_iff (by simp)).mpr hkind]
      exact .group _ framed
  | some e =>
    -- The settled operand is known to fit its frames, and the frames to resist the token.
    obtain ⟨e', mem, held, complete⟩ := spelled.settle rfl t.kind
    obtain ⟨frames', _, nodes', folded, settled, -⟩ := exists_fold t.kind frames e nodes
    rw [settle_some, folded] at shift mem held
    cases mem
    cases shift with
    | binary _ _ _ hkind =>
      rw [(Token.word_eq_iff (by simp)).mpr hkind]
      rw [hkind] at settled complete
      exact held.openLeft settled complete
    | closing _ _ _ hkind =>
      rw [(Token.word_eq_iff (by simp)).mpr hkind]
      exact held.close

theorem Reads.spelled (reads : start.Reads ts s) : s.Spelled (ts.map Token.word) := by
  have spelled := reads.induct (motive := fun s ts => s.Spelled (ts.map Token.word)) [] Framed.nil
    fun front spelled shift => by simpa using spelled.shift shift
  simpa using spelled

end Reading

namespace Expr

variable {stop : Token} {body : List Token} {p : Parse}

/-- A parsed expression is well bracketed, and flattened it is the list of tokens that was
parsed. -/
theorem spells_of_parse (unmarked : ∀ t ∈ body, t.isStop = false) (marked : stop.isStop = true)
    (parsed : parse (body ++ [stop]) = .ok p) :
    p.root.WellBracketed ∧ p.root.Spells (body.map Token.word) := by
  obtain ⟨s, reads, settled, -⟩ := (parse_append_eq_ok_iff unmarked marked).mp parsed
  obtain ⟨frames, operand, nodes⟩ := s
  cases operand with
  | none => cases settled
  | some e =>
    obtain ⟨root, mem, held, -⟩ := reads.spelled.settle rfl .stop
    rw [settled] at mem held
    cases mem
    obtain ⟨front, back, framed, spelled, words⟩ := held.spelled
    -- No frames are left, so there are no words in front of the expression.
    cases framed
    rw [words]
    exact ⟨held.wellBracketed, spelled⟩

end Expr

end Sentential
