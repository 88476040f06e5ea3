import Sentential.Proofs.Parse.Soundness

/-!
# What was written is parsed

The words of a well-bracketed expression can be read inside any frames that admit its root. What the
reader then has is not the expression itself, since a bare root is completed only by the next token;
but whatever that token is, as long as it completes the root, the settling goes on as if the
expression stood on the stack as one operand. This form of the statement passes through all
operands by induction on the expression. Around a node, one more pair of brackets is read by
induction on their number.

## Main definitions

* `Expr.ReadBack` — some words are read as an expression, inside any frames that admit it

## Main results

* `Expr.readBack_flatten` — the words of a well-bracketed expression are read as that expression
* `Expr.parse_inverts_flatten` — parsing inverts flattening, on the well-bracketed expressions
-/

namespace Sentential

open Reading (Admits Shift Reads fold completes)
open Token (Word)

namespace Reading

variable {frames : List Frame} {op : Connective}

/-- Frames that admit a connective admit every tighter one. -/
theorem admits_of_tight {bare : Option Connective}
    (admits : Admits frames (some op)) (tight : ∀ inner ∈ bare, op.strength ≤ inner.strength) :
    Admits frames bare := by
  match frames, admits with
  | [], _ | .group _ :: _, _ => trivial
  | .left op' _ :: _, admits =>
    exact fun inner mem => Nat.lt_of_lt_of_le (admits op rfl) (tight inner mem)

/-- What completes a connective completes every tighter one. -/
theorem completes_of_le {next : Token.Kind} {inner : Connective}
    (completed : completes next op = true) (tighter : op.strength ≤ inner.strength) :
    completes next inner = true := by
  cases next with
  | binary op' =>
    have weaker : op'.strength ≤ op.strength := of_decide_eq_true completed
    exact decide_eq_true (Nat.le_trans weaker tighter)
  | name | constant | negation | opening | closing | stop => rfl

end Reading

namespace Expr

variable {e l r : Expr} {ws ws' : List Word} {op : Connective} {stop : Token} {body : List Token}

/-- Inside any frames that admit the root, the words are read as the expression: a token that
completes the root finds it as one operand, with its brackets and with numbers of the reader. -/
def ReadBack (e : Expr) (ws : List Word) : Prop :=
  ∀ (frames : List Frame) (nodes : Array Expr) (ts : List Token),
    Admits frames e.bareConnective? → ts.map Token.word = ws →
    ∃ s e' nodes', Reads ⟨frames, none, nodes⟩ ts s ∧
      e'.mapMark Mark.unnumbered = e.mapMark Mark.written ∧
      ∀ next, (∀ inner ∈ e.bareConnective?, completes next inner = true) →
        s.settle next = fold next frames e' nodes'

/-! ### Bare nodes -/

theorem readBack_var (name : String) : (var {} name).ReadBack [⟨.name, name⟩] := by
  intro frames nodes ts _ words
  obtain ⟨t, rfl, word⟩ := List.map_eq_singleton_iff.mp words
  obtain ⟨hkind, rfl⟩ := Token.word_eq_name_iff.mp word
  exact ⟨_, var ⟨nodes.size, 0⟩ t.text, _, .cons (.name frames nodes hkind) (.nil _), rfl,
    fun next _ => rfl⟩

theorem readBack_const (value : Bool) :
    (const {} value).ReadBack [⟨.constant value, ""⟩] := by
  intro frames nodes ts _ words
  obtain ⟨t, rfl, word⟩ := List.map_eq_singleton_iff.mp words
  have hkind := (Token.word_eq_iff (by simp)).mp word
  exact ⟨_, const ⟨nodes.size, 0⟩ value, _, .cons (.constant frames nodes hkind) (.nil _), rfl,
    fun next _ => rfl⟩

theorem ReadBack.not (inner : e.ReadBack ws) (bare : e.bareConnective? = none) :
    (not {} e).ReadBack (⟨.negation, ""⟩ :: ws) := by
  intro frames nodes ts _ words
  obtain ⟨t, rest, rfl, word, words⟩ := List.map_eq_cons_iff.mp words
  have hkind := (Token.word_eq_iff (by simp)).mp word
  obtain ⟨s, e', nodes', reads, marks, settles⟩ :=
    inner (.negation :: frames) nodes rest bare words
  refine ⟨s, .not ⟨nodes'.size, 0⟩ e', nodes'.push (.not ⟨nodes'.size, 0⟩ e'),
    .cons (.negation frames nodes hkind) reads, ?_, fun next _ => ?_⟩
  · rw [mapMark, mapMark, marks]
    rfl
  · rw [settles next (Reading.completes_of_bare bare), fold]

theorem ReadBack.binary (left : l.ReadBack ws) (right : r.ReadBack ws')
    (tightLeft : ∀ inner ∈ l.bareConnective?, op.strength ≤ inner.strength)
    (tightRight : ∀ inner ∈ r.bareConnective?, op.strength < inner.strength) :
    (binary {} op l r).ReadBack (ws ++ ⟨.binary op, ""⟩ :: ws') := by
  intro frames nodes ts admits words
  obtain ⟨ts₁, _, rfl, wordsLeft, words⟩ := List.map_eq_append_iff.mp words
  obtain ⟨t, ts₂, rfl, word, wordsRight⟩ := List.map_eq_cons_iff.mp words
  have hkind := (Token.word_eq_iff (by simp)).mp word
  -- The left operand is read inside the frames of the whole, since it binds at least as tightly.
  obtain ⟨s₁, l', nodes₁, readsLeft, marksLeft, settlesLeft⟩ :=
    left frames nodes ts₁ (Reading.admits_of_tight admits tightLeft) wordsLeft
  -- The connective completes the left operand, and nothing of the frames.
  have settled : s₁.settle t.kind = ⟨frames, some l', nodes₁⟩ := by
    rw [hkind, settlesLeft (.binary op) (by simpa [completes] using tightLeft),
      Reading.fold_of_settled (Reading.admits_some_iff.mp admits)]
  have shift : Shift (s₁.settle t.kind) t ⟨.left op l' :: frames, none, nodes₁⟩ := by
    rw [settled]
    exact .binary frames l' nodes₁ hkind
  obtain ⟨s₂, r', nodes₂, readsRight, marksRight, settlesRight⟩ :=
    right (.left op l' :: frames) nodes₁ ts₂ tightRight wordsRight
  let node : Expr := .binary ⟨nodes₂.size, 0⟩ op l' r'
  refine ⟨s₂, node, nodes₂.push node, readsLeft.append (.cons shift readsRight), ?_,
    fun next complete => ?_⟩
  · simp only [node, mapMark, marksLeft, marksRight]
    rfl
  · have completed : completes next op = true := complete op rfl
    have completesRight : ∀ inner ∈ r.bareConnective?, completes next inner = true :=
      fun inner mem => Reading.completes_of_le completed (Nat.le_of_lt (tightRight inner mem))
    rw [settlesRight next completesRight, fold, if_pos completed]

/-! ### Brackets -/

/-- One more pair of brackets, of any family. -/
theorem ReadBack.close {n : Nat} (bracket : Bracket) (inner : (e.withMark ⟨-1, n⟩).ReadBack ws) :
    (e.withMark ⟨-1, n + 1⟩).ReadBack
      (⟨.opening bracket, ""⟩ :: (ws ++ [⟨.closing bracket, ""⟩])) := by
  intro frames nodes ts _ words
  obtain ⟨opener, _, rfl, wordOpener, words⟩ := List.map_eq_cons_iff.mp words
  obtain ⟨ts, _, rfl, inside, last⟩ := List.map_eq_append_iff.mp words
  obtain ⟨closer, rfl, wordCloser⟩ := List.map_eq_singleton_iff.mp last
  have opens := (Token.word_eq_iff (by simp)).mp wordOpener
  have closes := (Token.word_eq_iff (by simp)).mp wordCloser
  obtain ⟨s, e', nodes', reads, marks, settles⟩ :=
    inner (.group bracket :: frames) nodes ts trivial inside
  have shift : Shift (s.settle closer.kind) closer (Reading.close frames e' nodes') := by
    rw [closes, settles _ (fun _ _ => rfl)]
    exact .closing frames e' nodes' closes
  refine ⟨_, e'.withMark { e'.mark with brackets := e'.mark.brackets + 1 }, _,
    .cons (.opening frames nodes opens) (reads.snoc shift), ?_, fun next _ => rfl⟩
  -- The count goes up by one pair from what the operand had inside the brackets.
  have count : e'.mark.brackets = n := by
    have mark := congrArg mark marks
    simp only [mark_mapMark, mark_withMark] at mark
    have shown := congrArg Mark.brackets mark
    simpa [Mark.unnumbered, Mark.written] using shown
  have counted : Mark.unnumbered { e'.mark with brackets := e'.mark.brackets + 1 } =
      Mark.written ⟨-1, n + 1⟩ := by
    simp only [Mark.unnumbered, Mark.written, count, Mark.mk.injEq, true_and]
    omega
  rw [mapMark_withMark, marks, mapMark_withMark, mapMark_withMark, withMark_withMark, counted]

/-- A bare node inside the brackets of a mark. -/
theorem ReadBack.around (family : Nat → Bracket) (inner : (e.withMark {}).ReadBack ws) :
    e.ReadBack (bracketed family e.mark.brackets.toNat ws) := by
  -- Any number of pairs can be put around a bare node, one at a time from inside.
  have stacked : ∀ n : Nat, (e.withMark ⟨-1, n⟩).ReadBack (bracketed family n ws) := by
    intro n
    induction n with
    | zero => exact inner
    | succ n ih => exact ih.close (family n)
  have sameMarks : (e.withMark ⟨-1, e.mark.brackets.toNat⟩).mapMark Mark.written =
      e.mapMark Mark.written := by
    have sameMark : Mark.written ⟨-1, e.mark.brackets.toNat⟩ = e.mark.written := by
      simp only [Mark.written, Mark.mk.injEq, true_and]
      omega
    calc (e.withMark ⟨-1, e.mark.brackets.toNat⟩).mapMark Mark.written
        = (e.withMark e.mark).mapMark Mark.written := by
          rw [mapMark_withMark, mapMark_withMark, sameMark]
      _ = e.mapMark Mark.written := by rw [withMark_mark]
  have sameBare : (e.withMark ⟨-1, e.mark.brackets.toNat⟩).bareConnective? =
      e.bareConnective? := by
    cases e with
    | binary m op l r =>
      have sameGroup : 0 < max m.brackets 0 ↔ 0 < m.brackets := by omega
      simp [withMark, mark, bareConnective?, Mark.isGrouped, sameGroup]
    | var | const | not => rfl
  have written := stacked e.mark.brackets.toNat
  rw [ReadBack, sameMarks, sameBare] at written
  exact written

/-! ### Whole expressions -/

/-- The words of a well-bracketed expression are read as that expression. -/
theorem readBack_flatten (wellBracketed : e.WellBracketed) (family : Families) :
    e.ReadBack (e.flatten family) := by
  induction e generalizing family with
  | var m name => exact (readBack_var name).around (e := var m name) _
  | const m value => exact (readBack_const value).around (e := const m value) _
  | not m e ih =>
    obtain ⟨bare, inner⟩ := wellBracketed
    exact ((ih inner family.left).not bare).around (e := not m e) _
  | binary m op l r ihl ihr =>
    obtain ⟨tightLeft, tightRight, left, right⟩ := wellBracketed
    exact ((ihl left family.left).binary (ihr right family.right) tightLeft tightRight).around
      (e := binary m op l r) _

/-- The tokens of a well-bracketed expression are parsed to it. -/
theorem parse_of_flatten (wellBracketed : e.WellBracketed) (family : Families)
    (marked : stop.isStop = true) (words : body.map Token.word = e.flatten family) :
    ∃ p, parse (body ++ [stop]) = .ok p ∧
      p.root.mapMark Mark.unnumbered = e.mapMark Mark.written := by
  obtain ⟨s, root, nodes, reads, marks, settles⟩ :=
    readBack_flatten wellBracketed family [] #[] body trivial words
  refine ⟨⟨root, nodes, body.length⟩, ?_, marks⟩
  exact (parse_append_eq_ok_iff reads.isStop_eq_false marked).mpr
    ⟨s, reads, settles .stop (fun _ _ => rfl), rfl⟩

/-- **Parsing inverts flattening.** Take a list of tokens with one end mark, its last token. If it
is parsed, the expression is well bracketed and flattens to the tokens before the mark, for some
choice of families. And if the tokens before the mark are a flattening of a well-bracketed
expression, for any choice of families, they are parsed to that expression, with the brackets of
every node. -/
theorem parse_inverts_flatten :
    (∀ (body : List Token) (stop : Token) (p : Parse), (∀ t ∈ body, t.isStop = false) →
      stop.isStop = true → parse (body ++ [stop]) = .ok p →
      p.root.WellBracketed ∧ ∃ family, p.root.flatten family = body.map Token.word) ∧
    (∀ (e : Expr) (family : Families) (body : List Token) (stop : Token), e.WellBracketed →
      stop.isStop = true → body.map Token.word = e.flatten family →
      ∃ p, parse (body ++ [stop]) = .ok p ∧
        p.root.mapMark Mark.unnumbered = e.mapMark Mark.written) :=
  ⟨fun _ _ _ unmarked marked parsed => spells_of_parse unmarked marked parsed,
    fun _ family _ _ wellBracketed marked words =>
      parse_of_flatten wellBracketed family marked words⟩

/-- Two implications in a row, and an exclusive disjunction that binds tighter than both. -/
def chained : Expr :=
  .binary {} .implies (.binary {} .implies (.var {} "A") (.var {} "B"))
    (.binary {} .xor (.not ⟨-1, 2⟩ (.var {} "C"))
      (.not {} (.binary ⟨-1, 1⟩ .or (.const {} true) (.var {} "A"))))

/-- The tokens of `A -> B -> [{~C}] ^ !(1 | A)`. -/
def chainedTokens : List Token :=
  [⟨.name, "A", 0⟩, ⟨.binary .implies, "->", 2⟩, ⟨.name, "B", 5⟩, ⟨.binary .implies, "->", 7⟩,
    ⟨.opening .square, "[", 10⟩, ⟨.opening .brace, "\x7b", 11⟩, ⟨.negation, "~", 12⟩,
    ⟨.name, "C", 13⟩, ⟨.closing .brace, "\x7d", 14⟩, ⟨.closing .square, "]", 15⟩,
    ⟨.binary .xor, "^", 17⟩, ⟨.negation, "!", 19⟩, ⟨.opening .paren, "(", 20⟩,
    ⟨.constant true, "1", 21⟩, ⟨.binary .or, "|", 23⟩, ⟨.name, "A", 25⟩,
    ⟨.closing .paren, ")", 26⟩]

theorem parse_inverts_flatten_chained : chained.WellBracketed ∧
    ∃ p, parse (chainedTokens ++ [⟨.stop, "", 27⟩]) = .ok p ∧
      p.root.mapMark Mark.unnumbered = chained ∧ p.root.WellBracketed ∧
      ∃ family, p.root.flatten family = chainedTokens.map Token.word := by
  have wellBracketed : chained.WellBracketed := by decide
  have unmarked : ∀ t ∈ chainedTokens, t.isStop = false := by decide
  let family : Families := fun path n =>
    if path.length = 3 then .paren else if n = 0 then .brace else .square
  obtain ⟨p, parsed, marks⟩ :=
    parse_inverts_flatten.2 chained family chainedTokens ⟨.stop, "", 27⟩ wellBracketed rfl rfl
  obtain ⟨returned, flattened⟩ :=
    parse_inverts_flatten.1 chainedTokens ⟨.stop, "", 27⟩ p unmarked rfl parsed
  exact ⟨wellBracketed, p, parsed, marks, returned, flattened⟩

end Expr

end Sentential
