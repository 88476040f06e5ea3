import Sentential.Proofs.Parse.Refusal

/-!
# A descent comes to what a parse comes to

A descent and the reader with a stack of frames go through the tokens side by side. Where the
descent calls a level, the reader holds a frame for every call that is waiting, and no connective of
the level completes one of them. Where the level returns, the reader has the same operand on the
same frames; where it makes a node, the next token completes the frame of this node; and where it
refuses a token, the reader refuses it with the same message.

So a descent comes to what the parse of the tokens comes to, or it runs out of stack, which takes
many brackets or negations. It looks up no token behind the last one, and each of its loops ends.

## Main definitions

* `Token.nests` — the tokens that make a descent go deeper
* `Descent.StandsAt` — the tokens at a place of a list, up to an end mark
* `Descent.Agrees` — a part of a descent comes to what the reader comes to
* `Descent.Reliable` — a call agrees wherever it is made

## Main results

* `Descent.agrees_leftAssoc`, `Descent.agrees_factor` — the parts of a level agree
* `Descent.reliable_level` — every level agrees
* `Expr.descend_eq_parse_or_exhausted` — a descent on any stack
* `Expr.descend_eq_parse` — a descent on a stack that is deep enough
-/

namespace Sentential

/-- The token makes a descent call a level inside of the one that it reads. -/
def Token.nests (t : Token) : Bool := t.kind.isOpening || t.kind == .negation

namespace Connective

theorem pairwise_loosestFirst : loosestFirst.Pairwise (·.strength < ·.strength) := by decide

/-- The levels inside of that of a connective belong to those that bind tighter. -/
theorem mem_tighter_iff {op op' : Connective} {tighter : List Connective}
    (levels : op :: tighter <:+ loosestFirst) : op' ∈ tighter ↔ op.strength < op'.strength := by
  obtain ⟨looser, cut⟩ := levels
  have sorted := pairwise_loosestFirst
  have listed := mem_loosestFirst op'
  rw [← cut, List.pairwise_append, List.pairwise_cons] at sorted
  rw [← cut, List.mem_append, List.mem_cons] at listed
  obtain ⟨-, ⟨below, -⟩, across⟩ := sorted
  refine ⟨below op', fun stronger => ?_⟩
  rcases listed with loose | rfl | tight
  · have weaker := across op' loose op List.mem_cons_self
    omega
  · omega
  · exact tight

end Connective

namespace Descent

open Sentential.Expr (Failure Parse parseFrom)
open Reading (completes fold fold_of_settled Settled settle_none settle_some)
open Connective (loosestFirst mem_loosestFirst mem_tighter_iff)

variable {ts back back' rest more : List Token} {stop t : Token} {c : Cursor}
variable {frames frames' : List Frame} {e left : Expr} {nodes : Array Expr} {d : Diagnostic}
variable {op : Connective} {ops ops' tighter : List Connective} {next : Token.Kind}
variable {depth rounds index : Nat} {s s' : Reading} {whole : Except Failure Parse} {r : Result}
variable {lacking lacking' : Prop}

/-! ### Places -/

/-- At a place of a list of tokens there are some without an end mark, then the end mark `stop` and
then any others. -/
structure StandsAt (ts : List Token) (stop : Token) (rest : List Token) (place : Nat)
    (back : List Token) : Prop where
  cut : ts.drop place = back ++ stop :: rest
  unmarked : ∀ t ∈ back, t.isStop = false
  marked : stop.kind = .stop

/-- The kind of the next token, the end mark being the last. -/
def ahead (stop : Token) (back : List Token) : Token.Kind := (back.head?.getD stop).kind

theorem current_eq (cut : ts.drop c.place = t :: more) : current ts c = .ok t := by
  have found : ts[c.place]? = some t := by rw [← List.head?_drop, cut, List.head?_cons]
  rw [current, found]

theorem StandsAt.current_stop (stands : StandsAt ts stop rest c.place []) :
    current ts c = .ok stop := current_eq stands.cut

theorem StandsAt.current (stands : StandsAt ts stop rest c.place (t :: back)) :
    current ts c = .ok t := current_eq stands.cut

theorem StandsAt.advance (stands : StandsAt ts stop rest c.place (t :: back)) :
    advance ts c = .ok { c with place := c.place + 1 } := by
  rw [Descent.advance, stands.current]
  simp only [bind, Except.bind, stands.unmarked t List.mem_cons_self]
  rfl

theorem StandsAt.tail (stands : StandsAt ts stop rest index (t :: back)) :
    StandsAt ts stop rest (index + 1) back where
  cut := by rw [← List.drop_drop, stands.cut, List.cons_append, List.drop_one, List.tail_cons]
  unmarked := (List.forall_mem_cons.mp stands.unmarked).2
  marked := stands.marked

/-- There are more tokens than those before the end mark. -/
theorem StandsAt.length_lt (stands : StandsAt ts stop rest index back) :
    back.length < ts.length := by
  have length := congrArg List.length stands.cut
  rw [List.length_drop, List.length_append, List.length_cons] at length
  omega

/-! ### The reader beside the descent -/

/-- A connective is completed by everything except a connective of a level inside of its own. -/
theorem completes_of_apart (levels : op :: tighter <:+ loosestFirst)
    (apart : ∀ op' ∈ tighter, next ≠ .binary op') : completes next op = true := by
  cases next with
  | binary op' =>
    have outside : op' ∉ tighter := fun inside => apart op' inside rfl
    rw [mem_tighter_iff levels] at outside
    exact decide_eq_true (Nat.le_of_not_lt outside)
  | name | constant | negation | opening | closing | stop => rfl

/-- The right operand of a connective is read on a frame that no level inside completes. -/
theorem settled_left (levels : op :: tighter <:+ loosestFirst) (left : Expr)
    (frames : List Frame) :
    ∀ op' ∈ tighter, Settled (.binary op') (.left op left :: frames) := by
  intro op' inside
  have tight := (mem_tighter_iff levels).mp inside
  exact decide_eq_false (Nat.not_le_of_lt tight)

/-- Where the next token completes nothing, a reading that shifts it goes on behind it. -/
theorem parseFrom_of_shift (kept : s.settle t.kind = s) (shift : s.Shift t s') :
    parseFrom stop s index (t :: back) = parseFrom stop s' (index + 1) back := by
  simp only [parseFrom, kept, Reading.step_eq_ok_iff.mpr shift]

/-- Where the next token completes nothing, a reading that has no step for it fails. -/
theorem parseFrom_of_error (kept : s.settle t.kind = s) (refused : s.step t = .error d) :
    parseFrom stop s index (t :: back) = .error ⟨d, s.nodes, index⟩ := by
  simp only [parseFrom, kept, refused]

/-- What a reading comes to is decided by what the next token completes. -/
theorem parseFrom_congr (marked : stop.kind = .stop)
    (same : s.settle (ahead stop back) = s'.settle (ahead stop back)) :
    parseFrom stop s index back = parseFrom stop s' index back := by
  cases back with
  | nil =>
    have same : s.settle .stop = s'.settle .stop := marked ▸ same
    simp only [parseFrom, same]
  | cons t back =>
    have same : s.settle t.kind = s'.settle t.kind := same
    simp only [parseFrom, same]

theorem parseFrom_left (marked : stop.kind = .stop)
    (completed : completes (ahead stop back) op = true) :
    parseFrom stop ⟨.left op left :: frames, some e, nodes⟩ index back =
      parseFrom stop ⟨frames, some (.binary ⟨nodes.size, 0⟩ op left e),
        nodes.push (.binary ⟨nodes.size, 0⟩ op left e)⟩ index back := by
  apply parseFrom_congr marked
  rw [settle_some, settle_some, fold, if_pos completed]

theorem parseFrom_negation (marked : stop.kind = .stop) :
    parseFrom stop ⟨.negation :: frames, some e, nodes⟩ index back =
      parseFrom stop ⟨frames, some (.not ⟨nodes.size, 0⟩ e),
        nodes.push (.not ⟨nodes.size, 0⟩ e)⟩ index back := by
  apply parseFrom_congr marked
  rw [settle_some, settle_some, fold]

/-! ### Agreement -/

/-- What a part of a descent comes to, beside a reading that comes to `whole` from where the part
begins, with the tokens `back` before the end mark. If it returns an operand, the reading has this
operand on the same frames, and the next token is no connective of the levels that were read. It
neither looks up a token behind the last one nor goes round a loop without end. -/
inductive Agrees (ts : List Token) (stop : Token) (rest : List Token) (frames : List Frame)
    (ops : List Connective) (whole : Except Failure Parse) (back : List Token) (lacking : Prop) :
    Result → Prop
  | returned {e : Expr} {c : Cursor} {back' : List Token} (suffix : back' <:+ back)
      (stands : StandsAt ts stop rest c.place back')
      (apart : ∀ op ∈ ops, ahead stop back' ≠ .binary op)
      (same : whole = parseFrom stop ⟨frames, some e, c.nodes⟩ c.place back') :
      Agrees ts stop rest frames ops whole back lacking (.ok (e, c))
  | refused {f : Failure} (same : whole = .error f) :
      Agrees ts stop rest frames ops whole back lacking (.error (.refused f))
  | exhausted (short : lacking) :
      Agrees ts stop rest frames ops whole back lacking (.error .exhausted)

/-- A part of a descent agrees if what it begins with does, and then what follows. -/
theorem Agrees.bind {next : Expr × Cursor → Result}
    (agrees : Agrees ts stop rest frames' ops' whole back' lacking' r)
    (scarce : lacking' → lacking)
    (follows : ∀ (e : Expr) (c : Cursor) (back₁ : List Token), back₁ <:+ back' →
      StandsAt ts stop rest c.place back₁ → (∀ op ∈ ops', ahead stop back₁ ≠ .binary op) →
      Agrees ts stop rest frames ops
        (parseFrom stop ⟨frames', some e, c.nodes⟩ c.place back₁) back lacking (next (e, c))) :
    Agrees ts stop rest frames ops whole back lacking (r >>= next) := by
  cases agrees with
  | @returned e c back₁ suffix stands apart same =>
    exact same ▸ follows e c back₁ suffix stands apart
  | refused same => exact .refused same
  | exhausted short => exact .exhausted (scarce short)

theorem Agrees.mono (agrees : Agrees ts stop rest frames ops whole back' lacking' r)
    (suffix : back' <:+ back) (scarce : lacking' → lacking) :
    Agrees ts stop rest frames ops whole back lacking r := by
  cases agrees with
  | returned suffix' stands apart same => exact .returned (suffix'.trans suffix) stands apart same
  | refused same => exact .refused same
  | exhausted short => exact .exhausted (scarce short)

/-- A call for the given levels agrees, wherever it is made: on any frames that their connectives do
not complete, and before any tokens. It lacks stack only if there are brackets or negations. -/
def Reliable (ts : List Token) (stop : Token) (rest : List Token) (depth : Nat)
    (ops : List Connective) (call : Cursor → Result) : Prop :=
  ∀ (frames : List Frame) (c : Cursor) (back : List Token),
    StandsAt ts stop rest c.place back → (∀ op ∈ ops, Settled (.binary op) frames) →
    Agrees ts stop rest frames ops (parseFrom stop ⟨frames, none, c.nodes⟩ c.place back) back
      (depth < ops.length + 1 + 6 * back.countP Token.nests) (call c)

/-! ### Loops -/

theorem leftAssoc_of_ne {operand : Cursor → Result} (found : current ts c = .ok t)
    (other : t.kind ≠ .binary op) :
    leftAssoc ts op operand (rounds + 1) left c = .ok (left, c) := by
  rw [leftAssoc, found]
  simp only [bind, Except.bind, if_neg other]
  rfl

theorem leftAssoc_of_eq {operand : Cursor → Result}
    (stands : StandsAt ts stop rest c.place (t :: back)) (joins : t.kind = .binary op) :
    leftAssoc ts op operand (rounds + 1) left c =
      operand { c with place := c.place + 1 } >>= fun r =>
        leftAssoc ts op operand rounds (.binary ⟨r.2.nodes.size, 0⟩ op left r.1)
          { r.2 with nodes := r.2.nodes.push (.binary ⟨r.2.nodes.size, 0⟩ op left r.1) } := by
  rw [leftAssoc, stands.current]
  simp only [bind, Except.bind, if_pos joins, stands.advance]
  rfl

/-- The loop of a level goes as the reader does, and it ends because every round uses a token. -/
theorem agrees_leftAssoc {operand : Cursor → Result} (levels : op :: tighter <:+ loosestFirst)
    (operands : Reliable ts stop rest depth tighter operand)
    (stands : StandsAt ts stop rest c.place back) (settled : Settled (.binary op) frames)
    (apart : ∀ op' ∈ tighter, ahead stop back ≠ .binary op') (enough : back.length < rounds) :
    Agrees ts stop rest frames (op :: tighter)
      (parseFrom stop ⟨frames, some left, c.nodes⟩ c.place back) back
      (depth < tighter.length + 1 + 6 * back.countP Token.nests)
      (leftAssoc ts op operand rounds left c) := by
  induction rounds generalizing left c back with
  | zero => omega
  | succ rounds ih =>
    cases back with
    | nil =>
      have other : stop.kind ≠ .binary op := by simp [stands.marked]
      rw [leftAssoc_of_ne stands.current_stop other]
      exact .returned List.suffix_rfl stands (List.forall_mem_cons.mpr ⟨other, apart⟩) rfl
    | cons t back =>
      by_cases joins : t.kind = .binary op
      · have behind : back <:+ t :: back := List.suffix_cons t back
        have kept : Reading.settle ⟨frames, some left, c.nodes⟩ t.kind =
            ⟨frames, some left, c.nodes⟩ := joins ▸ fold_of_settled settled
        rw [leftAssoc_of_eq stands joins,
          parseFrom_of_shift kept (.binary frames left c.nodes joins)]
        apply (operands _ { c with place := c.place + 1 } back stands.tail
          (settled_left levels left frames)).bind
        · intro short
          -- A connective is not counted, so the operand may lack stack only if the loop does.
          have fewer := behind.sublist.countP_le (p := Token.nests)
          omega
        · intro right c' back' suffix stands' apart'
          -- The token behind the right operand completes the connective, so both make its node.
          rw [parseFrom_left stands.marked (completes_of_apart levels apart')]
          have within : back' <:+ t :: back := suffix.trans behind
          have fewer := within.sublist.countP_le (p := Token.nests)
          have shorter := suffix.length_le
          rw [List.length_cons] at enough
          have goesOn := @ih back'
            ⟨c'.place, c'.nodes.push (.binary ⟨c'.nodes.size, 0⟩ op left right)⟩
            (.binary ⟨c'.nodes.size, 0⟩ op left right) stands' apart' (by omega)
          exact goesOn.mono within (by omega)
      · rw [leftAssoc_of_ne stands.current joins]
        exact .returned List.suffix_rfl stands (List.forall_mem_cons.mpr ⟨joins, apart⟩) rfl

/-! ### Factors -/

/-- Behind an expression of all levels no token is read except by closing a group. -/
theorem step_of_apart {bracket : Bracket} (apart : ∀ op ∈ loosestFirst, t.kind ≠ .binary op)
    (other : t.kind ≠ .closing bracket) :
    Reading.step ⟨.group bracket :: frames, some e, nodes⟩ t =
      .error (.expectedCloser bracket t) := by
  cases kind : t.kind with
  | binary op => exact absurd kind (apart op (mem_loosestFirst op))
  | closing bracket' =>
    simp only [Reading.step, kind]
    rw [if_neg (kind ▸ other)]
  | name | constant | negation | opening | stop => simp [Reading.step, kind]

/-- Behind an expression of all levels a group is closed, or the next token is refused. -/
theorem agrees_closeGroup {bracket : Bracket} (stands : StandsAt ts stop rest c.place back')
    (apart : ∀ op ∈ loosestFirst, ahead stop back' ≠ .binary op) (suffix : back' <:+ back) :
    Agrees ts stop rest frames []
      (parseFrom stop ⟨.group bracket :: frames, some e, c.nodes⟩ c.place back') back lacking
      (closeGroup ts bracket e c) := by
  cases back' with
  | nil =>
    rw [closeGroup, stands.current_stop]
    simp only [bind, Except.bind, stands.marked]
    exact .refused rfl
  | cons t back' =>
    rw [closeGroup, stands.current]
    simp only [bind, Except.bind]
    by_cases closes : t.kind = .closing bracket
    · rw [if_pos closes, stands.advance,
        parseFrom_of_shift rfl (.closing frames e c.nodes closes)]
      exact .returned ((List.suffix_cons t back').trans suffix) stands.tail (by simp) rfl
    · -- No other token goes on here: the connectives that could are used up.
      rw [if_neg closes]
      exact .refused (parseFrom_of_error rfl (step_of_apart apart closes))

/-- A factor is read as the reader reads it, unless it is a negation. -/
theorem agrees_factor {call : Cursor → Result}
    (wholes : Reliable ts stop rest depth loosestFirst call)
    (stands : StandsAt ts stop rest c.place back) (other : ahead stop back ≠ .negation) :
    Agrees ts stop rest frames [] (parseFrom stop ⟨frames, none, c.nodes⟩ c.place back) back
      (depth < 6 * back.countP Token.nests) (factor ts call c) := by
  cases back with
  | nil =>
    rw [factor, stands.current_stop]
    simp only [bind, Except.bind, stands.marked]
    exact .refused rfl
  | cons t back =>
    have behind : back <:+ t :: back := List.suffix_cons t back
    rw [factor, stands.current]
    simp only [bind, Except.bind]
    cases kind : t.kind with
    | name =>
      simp only [stands.advance]
      rw [parseFrom_of_shift settle_none (.name frames c.nodes kind)]
      exact .returned behind stands.tail (by simp) rfl
    | constant value =>
      simp only [stands.advance]
      rw [parseFrom_of_shift settle_none (.constant frames c.nodes kind)]
      exact .returned behind stands.tail (by simp) rfl
    | opening bracket =>
      simp only [stands.advance]
      rw [parseFrom_of_shift settle_none (.opening frames c.nodes kind)]
      -- Inside of the group all levels are read anew, which is what the bracket is counted for.
      apply (wholes (.group bracket :: frames) { c with place := c.place + 1 } back stands.tail
        fun _ _ => trivial).bind
      · intro short
        have deeper : t.nests = true := by simp [Token.nests, kind, Token.Kind.isOpening]
        rw [List.countP_cons_of_pos deeper]
        simp only [loosestFirst, List.length_cons, List.length_nil] at short
        omega
      · intro inner c' back' suffix stands' apart
        exact agrees_closeGroup stands' apart (suffix.trans behind)
    | negation => exact absurd kind other
    | binary | closing =>
      exact .refused (parseFrom_of_error settle_none (by simp only [Reading.step, kind]))
    | stop =>
      have unmarked := stands.unmarked t List.mem_cons_self
      simp [Token.isStop, kind] at unmarked

/-! ### Levels -/

theorem level_of_negation (stands : StandsAt ts stop rest c.place (t :: back))
    (kind : t.kind = .negation) :
    level ts (depth + 1) [] c = level ts depth [] { c with place := c.place + 1 } >>= fun r =>
      .ok (.not ⟨r.2.nodes.size, 0⟩ r.1,
        { r.2 with nodes := r.2.nodes.push (.not ⟨r.2.nodes.size, 0⟩ r.1) }) := by
  rw [level, stands.current]
  simp only [bind, Except.bind, if_pos kind, stands.advance]
  rfl

theorem level_of_ne (found : current ts c = .ok t) (other : t.kind ≠ .negation) :
    level ts (depth + 1) [] c = factor ts (level ts depth loosestFirst) c := by
  rw [level, found]
  simp only [bind, Except.bind, if_neg other]

/-- Inside of all levels, negations and factors are read as the reader reads them. -/
theorem agrees_innermost (stands : StandsAt ts stop rest c.place back)
    (negations : Reliable ts stop rest depth [] (level ts depth []))
    (wholes : Reliable ts stop rest depth loosestFirst (level ts depth loosestFirst)) :
    Agrees ts stop rest frames [] (parseFrom stop ⟨frames, none, c.nodes⟩ c.place back) back
      (depth < 6 * back.countP Token.nests) (level ts (depth + 1) [] c) := by
  cases back with
  | nil =>
    have other : stop.kind ≠ .negation := by simp [stands.marked]
    rw [level_of_ne stands.current_stop other]
    exact agrees_factor wholes stands other
  | cons t back =>
    by_cases kind : t.kind = .negation
    · have behind : back <:+ t :: back := List.suffix_cons t back
      rw [level_of_negation stands kind,
        parseFrom_of_shift settle_none (.negation frames c.nodes kind)]
      apply (negations (.negation :: frames) { c with place := c.place + 1 } back stands.tail
        (by simp)).bind
      · intro short
        have deeper : t.nests = true := by simp [Token.nests, kind]
        rw [List.countP_cons_of_pos deeper]
        rw [List.length_nil] at short
        omega
      · intro e c' back' suffix stands' _
        rw [parseFrom_negation stands.marked]
        exact .returned (suffix.trans behind) stands' (by simp) rfl
    · rw [level_of_ne stands.current kind]
      exact agrees_factor wholes stands kind

/-- Every call of a level goes as the reader does: by induction on the stack, a call of a level from
the calls of the next one, and the innermost from those of itself and of the outermost. -/
theorem reliable_level (depth : Nat) (levels : ops <:+ loosestFirst) :
    Reliable ts stop rest depth ops (level ts depth ops) := by
  induction depth generalizing ops with
  | zero =>
    intro frames c back stands settled
    exact .exhausted (by omega)
  | succ depth ih =>
    intro frames c back stands settled
    cases ops with
    | cons op tighter =>
      -- The first operand is read by the next level, and the loop goes on behind it.
      have operands := ih ((List.suffix_cons op tighter).trans levels)
      obtain ⟨outer, inner⟩ := List.forall_mem_cons.mp settled
      apply (operands frames c back stands inner).bind
      · intro short
        rw [List.length_cons]
        omega
      · intro left c' back' suffix stands' apart
        have fewer := suffix.sublist.countP_le (p := Token.nests)
        apply (agrees_leftAssoc levels operands stands' outer apart stands'.length_lt).mono suffix
        rw [List.length_cons]
        omega
    | nil =>
      -- A group starts from the outermost level again, so the list of levels does not shrink here.
      apply (agrees_innermost stands (ih List.nil_suffix) (ih List.suffix_rfl)).mono
        List.suffix_rfl
      rw [List.length_nil]
      omega

end Descent

namespace Expr

variable {ts : List Token} {depth : Nat}

/-- The end mark behind the tokens takes no stack. -/
theorem countP_nests_ended (ts : List Token) :
    (ended ts).countP Token.nests = ts.countP Token.nests := by
  unfold ended
  split
  · split
    · rfl
    · -- An end mark is put behind the tokens, and it neither opens a group nor negates.
      simp [List.countP_append, Token.nests, Token.Kind.isOpening]
  · rename_i empty
    rw [List.getLast?_eq_none_iff.mp empty]
    rfl

/-- **The descent refines the reader.** On any stack, and on any tokens with end marks anywhere or
nowhere, a descent comes to what the parse comes to: the same expression with the same nodes, the
same place behind it, and the same refusal. The only exception is that it runs out of stack, and
this takes brackets and negations, six calls for each. In no case does it look up a token behind the
last one or go round a loop without end. -/
theorem descend_eq_parse_or_exhausted (depth : Nat) (ts : List Token) :
    descend depth ts = (parse ts).mapError .refused ∨
      descend depth ts = .error .exhausted ∧ depth < 6 * (ts.countP Token.nests + 1) := by
  obtain ⟨body, stop, rest, cut, split, unmarked, marked⟩ := exists_ended_eq ts
  have kind : stop.kind = .stop := of_decide_eq_true marked
  have parsed : parse ts = parseFrom stop .start 0 body := by rw [parse, split]
  have fewer : body.countP Token.nests ≤ ts.countP Token.nests := by
    rw [← countP_nests_ended ts, cut, List.countP_append]
    exact Nat.le_add_right _ _
  have stands : Descent.StandsAt (ended ts) stop rest 0 body := ⟨cut, unmarked, kind⟩
  have agrees : Descent.Agrees (ended ts) stop rest [] Connective.loosestFirst (parse ts) body
      (depth < 6 + 6 * body.countP Token.nests)
      (Descent.level (ended ts) depth Connective.loosestFirst ⟨0, #[]⟩) := by
    rw [parsed]
    exact Descent.reliable_level depth List.suffix_rfl [] ⟨0, #[]⟩ body stands fun _ _ => trivial
  rw [descend]
  generalize Descent.level (ended ts) depth Connective.loosestFirst ⟨0, #[]⟩ = r at agrees ⊢
  cases agrees with
  | @returned e c back suffix stands apart same =>
    refine Or.inl ?_
    rw [same]
    cases back with
    | nil =>
      simp only [bind, Except.bind, stands.current_stop, marked]
      rfl
    | cons t back =>
      -- The outermost level has left a token that is neither a connective nor an end mark.
      have refused : Reading.step ⟨[], some e, c.nodes⟩ t = .error (.unexpectedToken t) := by
        cases kind : t.kind with
        | binary op => exact absurd kind (apart op (Connective.mem_loosestFirst op))
        | name | constant | negation | opening | closing | stop => simp [Reading.step, kind]
      rw [Descent.parseFrom_of_error rfl refused]
      simp only [bind, Except.bind, stands.current, stands.unmarked t List.mem_cons_self]
      rfl
  | refused same =>
    refine Or.inl ?_
    rw [same]
    rfl
  | exhausted short =>
    exact Or.inr ⟨rfl, by omega⟩

/-- A descent comes to what the parse comes to, if its stack is deep enough. -/
theorem descend_eq_parse (enough : 6 * (ts.countP Token.nests + 1) ≤ depth) :
    descend depth ts = (parse ts).mapError .refused := by
  rcases descend_eq_parse_or_exhausted depth ts with same | ⟨-, short⟩
  · exact same
  · omega

/-- A descent into the group of `(A)` takes twelve calls, six on each side of the bracket. -/
example : let ts : List Token :=
      [⟨.opening .paren, "(", 0⟩, ⟨.name, "A", 1⟩, ⟨.closing .paren, ")", 2⟩]
    descend 11 ts = .error .exhausted ∧
      descend 12 ts = .ok ⟨.var ⟨0, 1⟩ "A", #[.var ⟨0, 1⟩ "A"], 3⟩ :=
  ⟨rfl, rfl⟩

end Expr

end Sentential
