import Sentential.Expr.Parse

/-!
# Runs of the reader

What a token does to a settled state has one case for each way to go on; everything else is refused.
A successful parse is a run of these steps, with a settling before each, and a last settling at the
end mark. The other facts about the reader are read off such a run.

## Main definitions

* `Reading.Shift` — one step, by the kind of token
* `Reading.Reads` — a run over a list of tokens
* `Reading.openGroups` — the groups that are still open
* `Reading.Settled` — frames of which the next token completes none

## Main results

* `Reading.step_eq_ok_iff` — a step succeeds as `Reading.Shift` says
* `Reading.settled_fold` — after a settling the next token completes no frame
* `Expr.parse_append_eq_ok_iff` — a parse is a run from the start to a state that can finish
-/

namespace Sentential

/-- The bracket of a frame that is an open group. -/
def Frame.bracket? : Frame → Option Bracket
  | .group bracket => some bracket
  | .negation | .left .. => none

namespace Reading

variable {s s₁ s₂ s₃ : Reading} {t : Token} {ts ts₁ ts₂ : List Token}
variable {frames outer : List Frame} {e : Expr} {nodes : Array Expr} {next : Token.Kind}

/-! ### Steps -/

/-- What one token does to a settled state: an operand begins where none is complete, and a
connective or a closing bracket follows one that is. -/
inductive Shift : Reading → Token → Reading → Prop where
  | name (frames : List Frame) (nodes : Array Expr) {t : Token} (hkind : t.kind = .name) :
      Shift ⟨frames, none, nodes⟩ t (leaf ⟨frames, none, nodes⟩ (Expr.var · t.text))
  | constant (frames : List Frame) (nodes : Array Expr) {t : Token} {value : Bool}
      (hkind : t.kind = .constant value) :
      Shift ⟨frames, none, nodes⟩ t (leaf ⟨frames, none, nodes⟩ (Expr.const · value))
  | negation (frames : List Frame) (nodes : Array Expr) {t : Token} (hkind : t.kind = .negation) :
      Shift ⟨frames, none, nodes⟩ t ⟨.negation :: frames, none, nodes⟩
  | opening (frames : List Frame) (nodes : Array Expr) {t : Token} {bracket : Bracket}
      (hkind : t.kind = .opening bracket) :
      Shift ⟨frames, none, nodes⟩ t ⟨.group bracket :: frames, none, nodes⟩
  | binary (frames : List Frame) (e : Expr) (nodes : Array Expr) {t : Token} {op : Connective}
      (hkind : t.kind = .binary op) :
      Shift ⟨frames, some e, nodes⟩ t ⟨.left op e :: frames, none, nodes⟩
  | closing (outer : List Frame) (e : Expr) (nodes : Array Expr) {t : Token} {bracket : Bracket}
      (hkind : t.kind = .closing bracket) :
      Shift ⟨.group bracket :: outer, some e, nodes⟩ t (close outer e nodes)

theorem shift_of_step (h : s.step t = .ok s₁) : Shift s t s₁ := by
  obtain ⟨frames, operand, nodes⟩ := s
  cases operand with
  | none =>
    cases hkind : t.kind with simp only [step, hkind] at h
    | name => cases h; exact .name frames nodes hkind
    | constant value => cases h; exact .constant frames nodes hkind
    | negation => cases h; exact .negation frames nodes hkind
    | opening bracket => cases h; exact .opening frames nodes hkind
    | binary | closing | stop => cases h
  | some e =>
    cases hkind : t.kind with simp only [step, hkind] at h
    | binary op => cases h; exact .binary frames e nodes hkind
    | closing bracket =>
      split at h
      · split at h
        · rename_i heq
          cases heq
          cases h
          exact .closing _ e nodes hkind
        · cases h
      · cases h
    | name | constant | negation | opening | stop => split at h <;> simp at h

/-- A step succeeds in the ways that `Shift` lists, and in no other. -/
theorem step_eq_ok_iff : s.step t = .ok s₁ ↔ Shift s t s₁ := by
  refine ⟨shift_of_step, fun h => ?_⟩
  cases h with
  | name _ _ hkind | constant _ _ hkind | negation _ _ hkind | opening _ _ hkind
  | binary _ _ _ hkind | closing _ _ _ hkind => simp [step, hkind]

/-! ### Settling -/

/-- The groups that are still open, the innermost first. -/
def openGroups (frames : List Frame) : List Bracket := frames.filterMap Frame.bracket?

/-- The next token completes none of the frames. -/
def Settled (next : Token.Kind) : List Frame → Prop
  | .negation :: _ => False
  | .left op _ :: _ => completes next op = false
  | _ => True

theorem settle_none : settle ⟨frames, none, nodes⟩ next = ⟨frames, none, nodes⟩ := rfl

theorem settle_some :
    settle ⟨frames, some e, nodes⟩ next = fold next frames e nodes := rfl

theorem fold_of_settled (settled : Settled next frames) :
    fold next frames e nodes = ⟨frames, some e, nodes⟩ := by
  match frames, settled with
  | [], _ => rfl
  | .group bracket :: outer, _ => rfl
  | .left op l :: outer, settled =>
    have kept : completes next op = false := settled
    simp [fold, kept]

/-- A settling ends with an operand and with frames that the next token does not complete; the open
groups stay. -/
theorem exists_fold (next : Token.Kind) (frames : List Frame) (e : Expr) (nodes : Array Expr) :
    ∃ frames' e' nodes', fold next frames e nodes = ⟨frames', some e', nodes'⟩ ∧
      Settled next frames' ∧ openGroups frames' = openGroups frames := by
  fun_induction fold next frames e nodes with
  | case1 e nodes outer node ih => exact ih
  | case2 e nodes op l outer completed node ih => exact ih
  | case3 e nodes op l outer completed =>
    exact ⟨_, e, nodes, rfl, by simpa [Settled] using completed, rfl⟩
  | case4 frames e nodes notNegation notLeft =>
    refine ⟨frames, e, nodes, rfl, ?_, rfl⟩
    cases frames with
    | nil => trivial
    | cons frame outer =>
      cases frame with
      | negation => exact absurd rfl (notNegation outer)
      | left op l => exact absurd rfl (notLeft op l outer)
      | group bracket => trivial

/-- A token that is no connective completes everything up to the innermost open group. -/
theorem eq_nil_or_group_of_settled (total : ∀ op, completes next op = true)
    (settled : Settled next frames) :
    frames = [] ∨ ∃ bracket outer, frames = .group bracket :: outer := by
  match frames, settled with
  | [], _ => exact Or.inl rfl
  | .group bracket :: outer, _ => exact Or.inr ⟨bracket, outer, rfl⟩
  | .left op l :: outer, settled =>
    have kept : completes next op = false := settled
    rw [total op] at kept
    cases kept

/-! ### Runs -/

/-- A run over some tokens; each is read in a state that is settled for it. -/
inductive Reads : Reading → List Token → Reading → Prop
  | nil (s : Reading) : Reads s [] s
  | cons {s s₁ s₂ : Reading} {t : Token} {ts : List Token} :
      Shift (s.settle t.kind) t s₁ → Reads s₁ ts s₂ → Reads s (t :: ts) s₂

theorem Reads.append (front : Reads s ts₁ s₁) (back : Reads s₁ ts₂ s₂) :
    Reads s (ts₁ ++ ts₂) s₂ := by
  induction front with
  | nil s => exact back
  | cons shift _ ih => exact .cons shift (ih back)

theorem Reads.snoc (front : Reads s ts s₁) (shift : Shift (s₁.settle t.kind) t s₂) :
    Reads s (ts ++ [t]) s₂ :=
  front.append (.cons shift (.nil s₂))

/-- What every step keeps, every run keeps. -/
theorem Reads.induct {motive : Reading → List Token → Prop} (front : List Token)
    (reads : Reads s ts s₁) (base : motive s front)
    (step : ∀ {s s' t} front, motive s front → Shift (s.settle t.kind) t s' →
      motive s' (front ++ [t])) :
    motive s₁ (front ++ ts) := by
  induction reads generalizing front with
  | nil s => simpa using base
  | cons shift _ ih => simpa using ih _ (step front base shift)

theorem Shift.isStop_eq_false (shift : Shift s t s₁) : t.isStop = false := by
  cases shift with
  | name _ _ hkind | constant _ _ hkind | negation _ _ hkind | opening _ _ hkind
  | binary _ _ _ hkind | closing _ _ _ hkind => simp [Token.isStop, hkind]

theorem Reads.isStop_eq_false (reads : Reads s ts s₁) : ∀ t ∈ ts, t.isStop = false := by
  induction reads with
  | nil s => simp
  | cons shift _ ih => simpa using ⟨shift.isStop_eq_false, ih⟩

/-- A state can finish if it has an operand and no group is open. -/
theorem finish_eq_ok_iff {stop : Token} : (s.settle .stop).finish stop = .ok e ↔
    ∃ nodes, s.settle .stop = ⟨[], some e, nodes⟩ := by
  obtain ⟨frames, operand, nodes⟩ := s
  cases operand with
  | none => simp [settle_none, finish]
  | some e₀ =>
    obtain ⟨frames', e', nodes', folded, settled, -⟩ := exists_fold .stop frames e₀ nodes
    rw [settle_some, folded]
    rcases eq_nil_or_group_of_settled (fun _ => rfl) settled with rfl | ⟨bracket, outer, rfl⟩
    · simp [finish]
    · simp [finish]

end Reading

namespace Expr

variable {s : Reading} {stop : Token} {body rest ts : List Token} {p : Parse}

theorem splitAtStop_append (after : Nat) (unmarked : ∀ t ∈ body, t.isStop = false)
    (marked : stop.isStop = true) : splitAtStop after (body ++ stop :: rest) = (body, stop) := by
  induction body generalizing after with
  | nil => simp [splitAtStop, marked]
  | cons t body ih =>
    rw [List.forall_mem_cons] at unmarked
    simp [splitAtStop, unmarked.1, ih (t.pos + 1) unmarked.2]

theorem parseFrom_eq_ok_iff {index : Nat} : parseFrom stop s index ts = .ok p ↔
    ∃ s', s.Reads ts s' ∧ s'.settle .stop = ⟨[], some p.root, p.nodes⟩ ∧
      p.index = index + ts.length := by
  induction ts generalizing s index with
  | nil =>
    constructor
    · intro parsed
      simp only [parseFrom] at parsed
      split at parsed
      · rename_i root finished
        obtain ⟨nodes, settled⟩ := Reading.finish_eq_ok_iff.mp finished
        cases parsed
        exact ⟨s, .nil s, by simp [settled], by simp⟩
      · cases parsed
    · rintro ⟨s', reads, settled, index_eq⟩
      cases reads
      obtain ⟨root, nodes, last⟩ := p
      obtain rfl : last = index := index_eq
      simp [parseFrom, settled, Reading.finish]
  | cons t ts ih =>
    constructor
    · intro parsed
      simp only [parseFrom] at parsed
      split at parsed
      · rename_i s₁ step
        obtain ⟨s', reads, settled, index_eq⟩ := ih.mp parsed
        refine ⟨s', .cons (Reading.step_eq_ok_iff.mp step) reads, settled, ?_⟩
        rw [index_eq, List.length_cons]
        omega
      · cases parsed
    · rintro ⟨s', reads, settled, index_eq⟩
      cases reads with
      | cons shift reads =>
        simp only [parseFrom, Reading.step_eq_ok_iff.mpr shift]
        refine ih.mpr ⟨s', reads, settled, ?_⟩
        rw [index_eq, List.length_cons]
        omega

/-- A list of tokens with one end mark, its last token, parses exactly if the tokens before that
mark are a run to a state with one operand and no frames. -/
theorem parse_append_eq_ok_iff (unmarked : ∀ t ∈ body, t.isStop = false)
    (marked : stop.isStop = true) : parse (body ++ [stop]) = .ok p ↔
    ∃ s', Reading.start.Reads body s' ∧ s'.settle .stop = ⟨[], some p.root, p.nodes⟩ ∧
      p.index = body.length := by
  simp only [parse, splitAtStop_append 0 unmarked marked, parseFrom_eq_ok_iff, Nat.zero_add]

end Expr

end Sentential
