import Sentential.Expr.Descent
import Sentential.Proofs.Parse.Acceptance
import Sentential.Proofs.Parse.Arena
import Sentential.Proofs.Token.Viability

/-!
# Parsing any tokens

Tokens that no linter has seen may be in any order, and end marks may be missing or stand anywhere.
A parse of such tokens is a run up to one of them: the first end mark, if the tokens before it are
an expression, and otherwise the first token that is refused. What stands behind this token does not
matter, whatever it is. The tokens before a refused one are still the beginning of an expression,
because the linter passes what the parser reads and knows how to complete it.

## Main definitions

* `Reading.Refuses` — a state cannot go on with a token
* `Expr.DecidedAt` — the place of the last token that matters
* `Expr.Parse.StandsAtStop`, `Expr.Failure.StandsAtFault` — what either outcome says of the tokens

## Main results

* `Reading.Reads.exists_completion` — what is read can be completed
* `Expr.exists_reads_of_parseFrom` — a failure is a run to a state that refuses the next token
* `Expr.parse_of_refuses`, `Expr.parse_of_settle` — what stands behind the next token is not read
* `Expr.parse_stops_at_fault` — each parse ends at the first end mark or at the first fault
-/

namespace Sentential

open Token (completion)

namespace Reading

variable {s s' : Reading} {t : Token} {ts : List Token} {d : Diagnostic}

/-! ### Refused tokens -/

/-- The state cannot go on: it cannot finish before an end mark, and has no step for another token.
-/
def Refuses (s : Reading) (t : Token) (d : Diagnostic) : Prop :=
  if t.isStop then (s.settle .stop).finish t = .error d else (s.settle t.kind).step t = .error d

theorem refuses_of_step (unmarked : t.isStop = false)
    (refused : (s.settle t.kind).step t = .error d) : s.Refuses t d := by
  rw [Refuses, unmarked]
  exact refused

theorem refuses_of_finish (marked : t.isStop = true)
    (refused : (s.settle .stop).finish t = .error d) : s.Refuses t d := by
  rw [Refuses, marked]
  exact refused

/-- The messages of the parser are about the token that is refused. -/
theorem position_of_step (refused : s.step t = .error d) :
    d.code = "ParseFailure" ∧ d.position = some t.pos := by
  unfold step at refused
  repeat' split at refused
  all_goals cases refused
  all_goals exact ⟨rfl, rfl⟩

theorem position_of_finish (refused : s.finish t = .error d) :
    d.code = "ParseFailure" ∧ d.position = some t.pos := by
  unfold finish at refused
  split at refused
  all_goals cases refused
  all_goals exact ⟨rfl, rfl⟩

theorem Refuses.position (refuses : s.Refuses t d) :
    d.code = "ParseFailure" ∧ d.position = some t.pos := by
  unfold Refuses at refuses
  split at refuses
  · exact position_of_finish refuses
  · exact position_of_step refuses

/-! ### Completions -/

/-- What the parser has read, the linter has passed. -/
theorem Reads.exists_tracks (reads : start.Reads ts s) :
    ∃ previous opened, Tracks previous opened s := by
  refine reads.induct (motive := fun s _ => ∃ previous opened, Tracks previous opened s) []
    ⟨none, [], tracks_start⟩ ?_
  rintro s s' t - ⟨previous, opened, tracks⟩ shift
  obtain ⟨opened', -, after⟩ := (tracks.settle t.kind).shift shift
  exact ⟨some t, opened', after⟩

theorem Tracks.isOpening {previous : Option Token} {opened : List Token}
    (tracks : Tracks previous opened s) : ∀ o ∈ opened, o.kind.isOpening = true := by
  intro o mem
  have kind : o.kind ∈ (openGroups s.frames).map .opening :=
    tracks.groups ▸ List.mem_map_of_mem mem
  obtain ⟨bracket, -, family⟩ := List.mem_map.mp kind
  rw [← family]
  rfl

/-- What is read can be completed to an expression. -/
theorem Reads.exists_completion (reads : start.Reads ts s) : ∃ more s' e nodes,
    start.Reads (ts ++ more) s' ∧ s'.settle .stop = ⟨[], some e, nodes⟩ := by
  obtain ⟨previous, opened, tracks⟩ := reads.exists_tracks
  -- The linter's completion passes from its own state, so the parser reads it from the related one.
  have unmarked : ∀ t ∈ completion previous opened, t.kind ≠ .stop := fun t mem =>
    of_decide_eq_false (Token.isStop_of_mem_completion tracks.isOpening t mem)
  have begun : previous ≠ none ∨ completion previous opened ≠ [] := by
    cases previous with
    | none => exact Or.inr (by simp [completion])
    | some p => exact Or.inl (Option.some_ne_none p)
  obtain ⟨s', e, nodes, rest, settled⟩ := (tracks.lintFrom_eq_none_iff unmarked begun).mp
    (Token.lintFrom_completion tracks.isOpening)
  exact ⟨_, s', e, nodes, reads.append rest, settled⟩

end Reading

namespace Expr

variable {s s' : Reading} {t stop : Token} {ts body read : List Token} {d : Diagnostic}
variable {f : Failure} {p : Parse} {e : Expr} {nodes : Array Expr} {index : Nat}

/-! ### Outcomes of runs -/

theorem parseFrom_append (reads : s.Reads read s') (index : Nat) (ts : List Token) :
    parseFrom stop s index (read ++ ts) = parseFrom stop s' (index + read.length) ts := by
  induction reads generalizing index with
  | nil s => rfl
  | @cons s s₁ s₂ t read shift reads ih =>
    simp only [List.cons_append, parseFrom, Reading.step_eq_ok_iff.mpr shift]
    rw [ih, List.length_cons, Nat.add_assoc, Nat.add_comm 1]

/-- What a parse comes to is settled in the state behind its last token. -/
theorem parseFrom_of_reads (reads : Reading.start.Reads read s) (stop : Token) :
    parseFrom stop .start 0 read = parseFrom stop s read.length [] := by
  calc parseFrom stop .start 0 read = parseFrom stop .start 0 (read ++ []) := by
        rw [List.append_nil]
    _ = parseFrom stop s read.length [] := by rw [parseFrom_append reads, Nat.zero_add]

/-- A failure is a run to a state that refuses the next token. -/
theorem exists_reads_of_parseFrom (unmarked : ∀ t ∈ ts, t.isStop = false)
    (marked : stop.isStop = true) (failed : parseFrom stop s index ts = .error f) :
    ∃ read t rest s', ts ++ [stop] = read ++ t :: rest ∧ s.Reads read s' ∧
      s'.Refuses t f.diagnostic ∧ f.nodes = (s'.settle t.kind).nodes ∧
      f.index = index + read.length := by
  induction ts generalizing s index with
  | nil =>
    simp only [parseFrom] at failed
    split at failed
    · cases failed
    · rename_i d refused
      cases failed
      have kind : stop.kind = .stop := of_decide_eq_true marked
      exact ⟨[], stop, [], s, rfl, .nil s, Reading.refuses_of_finish marked refused,
        by rw [kind], rfl⟩
  | cons t ts ih =>
    rw [List.forall_mem_cons] at unmarked
    -- The token is read, and the run goes on, or it is the one that is refused.
    simp only [parseFrom] at failed
    split at failed
    · rename_i s₁ step
      obtain ⟨read, t', rest, s', cut, reads, refuses, nodes_eq, index_eq⟩ := ih unmarked.2 failed
      refine ⟨t :: read, t', rest, s', congrArg _ cut,
        .cons (Reading.step_eq_ok_iff.mp step) reads, refuses, nodes_eq, ?_⟩
      rw [index_eq, List.length_cons]
      omega
    · rename_i d refused
      cases failed
      exact ⟨[], t, ts ++ [stop], s, rfl, .nil s, Reading.refuses_of_step unmarked.1 refused,
        rfl, rfl⟩

/-- Cutting at the first end mark keeps what stands before all end marks. -/
theorem exists_splitAtStop_append (unmarked : ∀ t ∈ body, t.isStop = false) (after : Nat)
    (ts : List Token) : ∃ before, splitAtStop after (body ++ ts) =
      (body ++ (splitAtStop before ts).1, (splitAtStop before ts).2) := by
  induction body generalizing after with
  | nil => exact ⟨after, rfl⟩
  | cons t body ih =>
    rw [List.forall_mem_cons] at unmarked
    obtain ⟨before, cut⟩ := ih unmarked.2 (t.pos + 1)
    exact ⟨before, by simp [splitAtStop, unmarked.1, cut]⟩

/-- Tokens that are read up to a refused one are refused, whatever follows. -/
theorem parse_of_refuses (reads : Reading.start.Reads read s) (refuses : s.Refuses t d)
    (more : List Token) :
    parse (read ++ t :: more) = .error ⟨d, (s.settle t.kind).nodes, read.length⟩ := by
  cases isStop : t.isStop with
  | true =>
    rw [Reading.Refuses, isStop, if_pos rfl] at refuses
    have kind : t.kind = .stop := of_decide_eq_true isStop
    simp only [parse, splitAtStop_append 0 reads.isStop_eq_false isStop, parseFrom_of_reads reads,
      parseFrom, refuses, kind]
  | false =>
    rw [Reading.Refuses, isStop, if_neg Bool.false_ne_true] at refuses
    obtain ⟨before, cut⟩ := exists_splitAtStop_append reads.isStop_eq_false 0 (t :: more)
    simp only [splitAtStop, isStop, Bool.false_eq_true, if_false] at cut
    simp only [parse, cut, parseFrom_append reads, parseFrom, refuses, Nat.zero_add]

/-- Tokens that are read up to an end mark, to a state that can finish, are parsed, whatever
follows. -/
theorem parse_of_settle (reads : Reading.start.Reads body s)
    (settled : s.settle .stop = ⟨[], some e, nodes⟩) (marked : stop.isStop = true)
    (more : List Token) : parse (body ++ stop :: more) = .ok ⟨e, nodes, body.length⟩ := by
  simp only [parse, splitAtStop_append 0 reads.isStop_eq_false marked, parseFrom_of_reads reads,
    parseFrom, settled, Reading.finish]

/-! ### The end mark -/

/-- Without an end mark, one is put behind the last token. -/
theorem splitAtStop_of_unmarked (unmarked : ∀ t ∈ ts, t.isStop = false) (after : Nat) :
    splitAtStop after ts = (ts, ⟨.stop, "", (ts.getLast?.map (·.pos + 1)).getD after⟩) := by
  induction ts generalizing after with
  | nil => rfl
  | cons t ts ih =>
    rw [List.forall_mem_cons] at unmarked
    simp only [splitAtStop, unmarked.1, ih unmarked.2, Bool.false_eq_true, if_false]
    cases ts with
    | nil => rfl
    | cons t' ts => simp [List.getLast?_cons]

theorem exists_ended_eq_append (ts : List Token) : ∃ rest, ended ts = ts ++ rest := by
  unfold ended
  split
  · split
    · exact ⟨[], (List.append_nil ts).symm⟩
    · exact ⟨_, rfl⟩
  · rename_i empty
    exact ⟨_, by rw [List.getLast?_eq_none_iff.mp empty, List.nil_append]⟩

/-- The parser cuts the tokens at the first end mark, the one behind them included. -/
theorem exists_ended_eq (ts : List Token) : ∃ body stop rest, ended ts = body ++ stop :: rest ∧
    splitAtStop 0 ts = (body, stop) ∧ (∀ t ∈ body, t.isStop = false) ∧ stop.isStop = true := by
  cases first : ts.find? Token.isStop with
  | some stop =>
    obtain ⟨marked, body, rest, rfl, before⟩ := List.find?_eq_some_iff_append.mp first
    have unmarked : ∀ t ∈ body, t.isStop = false := fun t mem => by simpa using before t mem
    obtain ⟨more, longer⟩ := exists_ended_eq_append (body ++ stop :: rest)
    rw [List.append_assoc, List.cons_append] at longer
    exact ⟨body, stop, rest ++ more, longer, splitAtStop_append 0 unmarked marked, unmarked, marked⟩
  | none =>
    have unmarked : ∀ t ∈ ts, t.isStop = false := by simpa using List.find?_eq_none.mp first
    have cut := splitAtStop_of_unmarked unmarked 0
    refine ⟨ts, _, [], ?_, cut, unmarked, rfl⟩
    unfold ended
    split
    · rename_i t last
      rw [unmarked t (List.mem_of_getLast? last), last]
      rfl
    · rename_i empty
      rw [List.getLast?_eq_none_iff.mp empty]
      rfl

/-! ### All tokens -/

/-- The token at place `k` is the last one that matters to a parse. -/
structure DecidedAt (ts : List Token) (k : Nat) : Prop where
  /-- None of the tokens before is an end mark. -/
  unmarked : ∀ t ∈ (ended ts).take k, t.isStop = false
  /-- Whatever stands behind, the outcome is the same. -/
  parse_eq : ∀ more, parse ((ended ts).take (k + 1) ++ more) = parse ts

/-- A parse has come to the first end mark. -/
structure Parse.StandsAtStop (p : Parse) (ts : List Token) : Prop where
  stop : ∃ t, (ended ts)[p.index]? = some t ∧ t.isStop = true
  decided : DecidedAt ts p.index
  /-- Every node stands at the place of its number. -/
  id_eq : ∀ (i : Nat) (less : i < p.nodes.size), p.nodes[i].mark.id = i

/-- A failure has come to the first token with which no expression begins. -/
structure Failure.StandsAtFault (f : Failure) (ts : List Token) : Prop where
  code : f.diagnostic.code = "ParseFailure"
  position : ∃ t, (ended ts)[f.index]? = some t ∧ f.diagnostic.position = some t.pos
  decided : DecidedAt ts f.index
  /-- The tokens before can be completed. -/
  viable : ∃ more p, parse ((ended ts).take f.index ++ more) = .ok p
  /-- Together with the token they cannot. -/
  final : ∀ more p, parse ((ended ts).take (f.index + 1) ++ more) ≠ .ok p
  /-- Every node stands at the place of its number. -/
  id_eq : ∀ (i : Nat) (less : i < f.nodes.size), f.nodes[i].mark.id = i

/-- The tokens of a run, and the one behind them. -/
theorem take_ended {rest : List Token} (cut : ended ts = read ++ t :: rest) :
    (ended ts).take read.length = read ∧ (ended ts)[read.length]? = some t ∧
      (ended ts).take (read.length + 1) = read ++ [t] := by
  rw [cut]
  refine ⟨List.take_left, by simp, ?_⟩
  rw [List.take_length_add_append]
  rfl

/-- A parse is a run over the tokens before the first end mark. -/
theorem standsAtStop_of_parse (parsed : parse ts = .ok p) : p.StandsAtStop ts := by
  obtain ⟨body, stop, rest, cut, split, -, marked⟩ := exists_ended_eq ts
  have run : parseFrom stop .start 0 body = .ok p := by rw [← parsed, parse, split]
  obtain ⟨s, reads, settled, index_eq⟩ := parseFrom_eq_ok_iff.mp run
  rw [Nat.zero_add] at index_eq
  obtain ⟨before, found, upTo⟩ := take_ended cut
  rw [← index_eq] at before found upTo
  have inStep := reads.inStep.settle .stop
  rw [settled] at inStep
  refine ⟨⟨stop, found, marked⟩, ⟨?_, fun more => ?_⟩, inStep.recorded.id_eq⟩
  · rw [before]
    exact reads.isStop_eq_false
  · rw [upTo, List.append_assoc, List.singleton_append, parse_of_settle reads settled marked,
      parsed, ← index_eq]

/-- A failure is a run over the tokens before the refused one, and these can be completed. -/
theorem standsAtFault_of_parse (failed : parse ts = .error f) : f.StandsAtFault ts := by
  obtain ⟨body, stop, rest, cut, split, unmarked, marked⟩ := exists_ended_eq ts
  have run : parseFrom stop .start 0 body = .error f := by rw [← failed, parse, split]
  obtain ⟨read, t, more, s, cutAt, reads, refuses, nodes_eq, index_eq⟩ :=
    exists_reads_of_parseFrom unmarked marked run
  rw [Nat.zero_add] at index_eq
  -- The refused token may be the first end mark itself, behind which there may be more tokens.
  have whole : ended ts = read ++ t :: (more ++ rest) := by
    rw [cut, ← List.singleton_append, ← List.append_assoc, cutAt, List.append_assoc,
      List.cons_append]
  obtain ⟨before, found, upTo⟩ := take_ended whole
  rw [← index_eq] at before found upTo
  have same : ∀ more, parse ((ended ts).take (f.index + 1) ++ more) = .error f := by
    intro more
    rw [upTo, List.append_assoc, List.singleton_append, parse_of_refuses reads refuses,
      ← nodes_eq, ← index_eq]
  constructor
  case code => exact refuses.position.1
  case position => exact ⟨t, found, refuses.position.2⟩
  case decided =>
    refine ⟨?_, fun more => (same more).trans failed.symm⟩
    rw [before]
    exact reads.isStop_eq_false
  case viable =>
    obtain ⟨more, s', e, nodes, reads', settled⟩ := reads.exists_completion
    refine ⟨more ++ [⟨.stop, "", 0⟩], ⟨e, nodes, (read ++ more).length⟩, ?_⟩
    rw [before, ← List.append_assoc]
    exact parse_of_settle reads' settled rfl []
  case final =>
    intro more p parsed
    rw [same more] at parsed
    cases parsed
  case id_eq =>
    rw [nodes_eq]
    exact (reads.inStep.settle t.kind).recorded.id_eq

/-- **A parse ends at the first end mark or at the first fault.** Of any tokens, in any order and
with end marks anywhere or nowhere, a parse returns an expression and stands at the first end mark,
or it fails and stands, with its message, at the first token with which no expression begins. What
comes before this token contains no end mark, what comes behind it does not matter, and every node
is recorded at the place of its number. -/
theorem parse_stops_at_fault (ts : List Token) :
    (∃ p, parse ts = .ok p ∧ p.StandsAtStop ts) ∨
    ∃ f, parse ts = .error f ∧ f.StandsAtFault ts := by
  cases outcome : parse ts with
  | ok p => exact Or.inl ⟨p, rfl, standsAtStop_of_parse outcome⟩
  | error f => exact Or.inr ⟨f, rfl, standsAtFault_of_parse outcome⟩

/-- The group of `(A` is missed at the end mark, although a closing bracket stands behind it. -/
example : ∃ f, parse [⟨.opening .paren, "(", 0⟩, ⟨.name, "A", 1⟩, ⟨.stop, "", 2⟩,
      ⟨.closing .paren, ")", 2⟩] = .error f ∧
    f.index = 2 ∧ f.diagnostic.message = "Expected ')' (position 3)" :=
  ⟨_, rfl, rfl, by decide⟩

end Expr

end Sentential
