import Mathlib.Algebra.Ring.Int.Defs
import Sentential.Proofs.Parse.Soundness

/-!
# The nodes of a parse

The nodes are recorded as they are completed, so those of a left operand come before those of the
right one and both before their connective: after a parse the record is the list of all nodes of the
tree, operands first. Between two tokens it is the nodes of the left operands that wait, the
outermost first, and then those of the complete operand. A group that is closed changes the mark of
a node that is already recorded. This node is the root of the complete operand, hence the last one
of the record, so nothing that was built on top of it is left with the old mark.

That no token is lost follows from the words of the tree: without the brackets they are one word for
each node, and each pair of brackets is counted on one mark.

## Main definitions

* `Reading.stored` — the nodes of the left operands that wait
* `Reading.InStep` — the record holds the nodes of a state, each at the place of its number
* `Expr.leaves` — the variables and constants, from left to right
* `Expr.Parse.AccountsFor` — a parse has kept all tokens

## Main results

* `Reading.InStep.shift` — a step keeps the record in step
* `Expr.filter_flatten` — the words of a tree that are no brackets
* `Expr.accountsFor_of_parse` — every parse has kept all tokens
-/

namespace Sentential

open Token (Word)

namespace Expr

/-- The nodes of an expression are those of its operands and then its root. -/
theorem postorder_eq (e : Expr) : e.postorder = e.operands.flatMap postorder ++ [e] := by
  cases e <;> simp [postorder, operands]

theorem operands_withMark (m : Mark) (e : Expr) : (e.withMark m).operands = e.operands := by
  cases e <;> rfl

end Expr

/-- The nodes that a frame holds: those of a left operand. -/
def Frame.nodes : Frame → List Expr
  | .left _ l => l.postorder
  | .negation | .group _ => []

namespace Reading

variable {s s₁ : Reading} {t : Token} {ts : List Token} {frames outer : List Frame}
variable {operand : Option Expr} {e node : Expr} {nodes : Array Expr} {l : List Expr}
variable {next : Token.Kind}

/-! ### The record -/

/-- The nodes of the left operands that wait, the outermost first. -/
def stored : List Frame → List Expr
  | [] => []
  | frame :: outer => stored outer ++ frame.nodes

/-- The nodes that a state holds, in the order of their completion. -/
def held (s : Reading) : List Expr := stored s.frames ++ s.operand.toList.flatMap Expr.postorder

/-- Every node stands at the place of its number, and no number of brackets is negative. -/
def Recorded (l : List Expr) : Prop :=
  ∀ (i : Nat) (node : Expr), l[i]? = some node → node.mark.id = i ∧ 0 ≤ node.mark.brackets

theorem recorded_nil : Recorded [] := by simp [Recorded]

theorem recorded_concat_iff : Recorded (l ++ [node]) ↔
    Recorded l ∧ node.mark.id = l.length ∧ 0 ≤ node.mark.brackets := by
  constructor
  · intro recorded
    refine ⟨fun i other found => recorded i other ?_, recorded l.length node (by simp)⟩
    rw [List.getElem?_append_left (List.getElem?_eq_some_iff.mp found).1, found]
  · rintro ⟨recorded, last⟩ i other found
    rcases Nat.lt_or_ge i l.length with before | behind
    · rw [List.getElem?_append_left before] at found
      exact recorded i other found
    · rw [List.getElem?_append_right behind, List.getElem?_singleton] at found
      obtain ⟨atEnd, rfl⟩ : i - l.length = 0 ∧ node = other := by simpa using found
      obtain rfl : i = l.length := by omega
      exact last

theorem Recorded.id_eq (recorded : Recorded nodes.toList) (i : Nat) (less : i < nodes.size) :
    nodes[i].mark.id = i := by
  refine (recorded i _ ?_).1
  rw [Array.getElem?_toList, Array.getElem?_eq_getElem less]

/-- No two nodes of a record share a number. -/
theorem Recorded.nodup_ids (recorded : Recorded l) : (l.map (·.mark.id)).Nodup := by
  rw [List.Nodup, List.pairwise_map, List.pairwise_iff_getElem]
  intro i j within within' less same
  rw [(recorded i _ (List.getElem?_eq_getElem within)).1,
    (recorded j _ (List.getElem?_eq_getElem within')).1] at same
  omega

/-- The record holds the nodes of the state and no others, each at the place of its number. -/
structure InStep (s : Reading) : Prop where
  nodes_eq : s.nodes.toList = s.held
  recorded : Recorded s.nodes.toList

theorem inStep_start : InStep start := ⟨rfl, recorded_nil⟩

/-! ### Steps keep the record -/

/-- A frame that opens moves nodes at most from the operand into the frames. -/
theorem InStep.reframe {operand' : Option Expr} (inStep : InStep ⟨frames, operand, nodes⟩)
    (same : held ⟨outer, operand', nodes⟩ = held ⟨frames, operand, nodes⟩) :
    InStep ⟨outer, operand', nodes⟩ :=
  ⟨inStep.nodes_eq.trans same.symm, inStep.recorded⟩

/-- A node is completed from the innermost operands, whose nodes come last. -/
theorem InStep.push (inStep : InStep ⟨frames, operand, nodes⟩)
    (marked : node.mark = ⟨nodes.size, 0⟩)
    (completed : held ⟨outer, some node, nodes⟩ = held ⟨frames, operand, nodes⟩ ++ [node]) :
    InStep ⟨outer, some node, nodes.push node⟩ where
  nodes_eq := by
    have record : nodes.toList = held ⟨frames, operand, nodes⟩ := inStep.nodes_eq
    rw [Array.toList_push, record, ← completed]
    rfl
  recorded := by
    rw [Array.toList_push, recorded_concat_iff, marked]
    exact ⟨inStep.recorded, by simp, Int.le_refl 0⟩

theorem InStep.leaf (inStep : InStep ⟨frames, none, nodes⟩) {make : Mark → Expr}
    (marked : (make ⟨nodes.size, 0⟩).mark = ⟨nodes.size, 0⟩)
    (isLeaf : (make ⟨nodes.size, 0⟩).operands = []) :
    InStep (leaf ⟨frames, none, nodes⟩ make) := by
  refine inStep.push marked ?_
  simp [held, Expr.postorder_eq (make _), isLeaf]

theorem inStep_fold (inStep : InStep ⟨frames, some e, nodes⟩) :
    InStep (fold next frames e nodes) := by
  -- A frame leaves the stack as its node is recorded, so what is held grows by this node alone.
  fun_induction fold next frames e nodes with
  | case1 e nodes outer node ih =>
    refine ih (inStep.push rfl ?_)
    simp [held, stored, Frame.nodes, node, Expr.postorder]
  | case2 e nodes op l outer completed node ih =>
    refine ih (inStep.push rfl ?_)
    simp [held, stored, Frame.nodes, node, Expr.postorder]
  | case3 | case4 => exact inStep

theorem InStep.settle (inStep : s.InStep) (next : Token.Kind) : (s.settle next).InStep := by
  obtain ⟨frames, operand, nodes⟩ := s
  cases operand with
  | none => exact inStep
  | some e => exact inStep_fold inStep

/-- Closing a group replaces the node that was recorded last. -/
theorem InStep.close {bracket : Bracket}
    (inStep : InStep ⟨.group bracket :: outer, some e, nodes⟩) : InStep (close outer e nodes) := by
  let below := stored outer ++ e.operands.flatMap Expr.postorder
  have record : nodes.toList = below ++ [e] := by
    rw [inStep.nodes_eq, held, Option.toList_some, List.flatMap_singleton, Expr.postorder_eq e,
      ← List.append_assoc]
    rw [stored, Frame.nodes, List.append_nil]
  obtain ⟨recorded, number, nonneg⟩ := recorded_concat_iff.mp (record ▸ inStep.recorded)
  -- The number of the root is the length of what was recorded before it.
  have replaced (node : Expr) :
      (nodes.setIfInBounds e.mark.id.toNat node).toList = below ++ [node] := by
    rw [Array.toList_setIfInBounds, record, number, Int.toNat_natCast, List.set_append_right _ _
      (Nat.le_refl _), Nat.sub_self, List.set_cons_zero]
  constructor
  · rw [Reading.close, replaced, held, Option.toList_some, List.flatMap_singleton,
      Expr.postorder_eq, Expr.operands_withMark, List.append_assoc]
  · rw [Reading.close, replaced, recorded_concat_iff, Expr.mark_withMark]
    exact ⟨recorded, number, Int.le_add_one nonneg⟩

/-- A step keeps the record in step with the state. -/
theorem InStep.shift (inStep : s.InStep) (shift : Shift s t s₁) : s₁.InStep := by
  cases shift with
  | name | constant => exact inStep.leaf rfl rfl
  | negation | opening | binary => exact inStep.reframe (by simp [held, stored, Frame.nodes])
  | closing => exact inStep.close

theorem Reads.inStep (reads : start.Reads ts s) : s.InStep :=
  reads.induct (motive := fun s _ => s.InStep) [] inStep_start
    fun _ inStep shift => (inStep.settle _).shift shift

end Reading

/-! ### Words of a tree -/

namespace Expr

variable {q : Word → Bool} {e : Expr}

/-- The words of the nodes, each connective between its operands, without brackets. -/
def words : Expr → List Word
  | var _ name => [⟨.name, name⟩]
  | const _ value => [⟨.constant value, ""⟩]
  | not _ e => ⟨.negation, ""⟩ :: e.words
  | binary _ op l r => l.words ++ ⟨.binary op, ""⟩ :: r.words

/-- The variables and constants, from left to right. -/
def leaves : Expr → List Word
  | var _ name => [⟨.name, name⟩]
  | const _ value => [⟨.constant value, ""⟩]
  | not _ e => e.leaves
  | binary _ _ l r => l.leaves ++ r.leaves

theorem length_words (e : Expr) : e.words.length = e.postorder.length := by
  induction e with
  | var | const => rfl
  | not m e ih => simp [words, postorder, ih]
  | binary m op l r ihl ihr => simp [words, postorder, ihl, ihr]

/-- Every node is an operand or an operator. -/
theorem filter_words_eq_self (e : Expr) :
    e.words.filter (fun w => w.kind.isOperand || w.kind.isOperator) = e.words := by
  induction e with
  | var | const => rfl
  | not m e ih => rw [words, List.filter_cons_of_pos rfl, ih]
  | binary m op l r ihl ihr =>
    rw [words, List.filter_append, List.filter_cons_of_pos rfl, ihl, ihr]

theorem filter_words_isOperand (e : Expr) : e.words.filter (·.kind.isOperand) = e.leaves := by
  induction e with
  | var | const => rfl
  | not m e ih => rw [words, List.filter_cons_of_neg (by decide), ih, leaves]
  | binary m op l r ihl ihr =>
    rw [words, List.filter_append, List.filter_cons_of_neg (by simp [Token.Kind.isOperand]), ihl,
      ihr, leaves]

theorem length_filter_words_isOperator (e : Expr) :
    (e.words.filter (·.kind.isOperator)).length = e.shape.operators := by
  induction e with
  | var | const => rfl
  | not m e ih => rw [words, List.filter_cons_of_pos rfl, List.length_cons, ih]; rfl
  | binary m op l r ihl ihr =>
    rw [words, List.filter_append, List.filter_cons_of_pos rfl, List.length_append,
      List.length_cons, ihl, ihr]
    rfl

theorem filter_bracketed (opening : ∀ b, q ⟨.opening b, ""⟩ = false)
    (closing : ∀ b, q ⟨.closing b, ""⟩ = false) (around : Nat → Bracket) (n : Nat)
    (ws : List Word) : (bracketed around n ws).filter q = ws.filter q := by
  induction n with
  | zero => rfl
  | succ n ih => simp [bracketed, opening, closing, ih]

/-- What is no bracket among the words of an expression belongs to its nodes. -/
theorem filter_flatten (opening : ∀ b, q ⟨.opening b, ""⟩ = false)
    (closing : ∀ b, q ⟨.closing b, ""⟩ = false) (e : Expr) (family : Families) :
    (e.flatten family).filter q = e.words.filter q := by
  induction e generalizing family with
  | var | const => rw [flatten, filter_bracketed opening closing]; rfl
  | not m e ih =>
    rw [flatten, filter_bracketed opening closing, words, List.filter_cons, List.filter_cons, ih]
  | binary m op l r ihl ihr =>
    rw [flatten, filter_bracketed opening closing, words, List.filter_append, List.filter_append,
      List.filter_cons, List.filter_cons, ihl, ihr]

/-- The number of opening brackets among some words. -/
def openings (ws : List Word) : Nat := ws.countP (·.kind.isOpening)

theorem openings_append (ws ws' : List Word) :
    openings (ws ++ ws') = openings ws + openings ws' :=
  List.countP_append

theorem openings_cons_of_neg {w : Word} (other : w.kind.isOpening = false) (ws : List Word) :
    openings (w :: ws) = openings ws :=
  List.countP_cons_of_neg (by simp [other])

theorem openings_bracketed (around : Nat → Bracket) (n : Nat) (ws : List Word) :
    openings (bracketed around n ws) = n + openings ws := by
  induction n with
  | zero => rw [bracketed, Nat.zero_add]
  | succ n ih =>
    have opener : ∀ ws', openings (⟨.opening (around n), ""⟩ :: ws') = openings ws' + 1 :=
      fun _ => List.countP_cons_of_pos rfl
    have closer : openings [⟨.closing (around n), ""⟩] = 0 := rfl
    rw [bracketed, opener, openings_append, closer, ih]
    omega

/-- Each pair of brackets is counted on one mark. -/
theorem openings_flatten (nonneg : ∀ node ∈ e.postorder, 0 ≤ node.mark.brackets)
    (family : Families) :
    (openings (e.flatten family) : Int) = (e.postorder.map (·.mark.brackets)).sum := by
  induction e generalizing family with
  | var m | const m =>
    rw [postorder, List.forall_mem_singleton] at nonneg
    rw [flatten, openings_bracketed, openings_cons_of_neg rfl, postorder, List.map_singleton,
      List.sum_singleton]
    exact Int.toNat_of_nonneg nonneg
  | not m e ih =>
    rw [postorder, List.forall_mem_append, List.forall_mem_singleton] at nonneg
    have own : (m.brackets.toNat : Int) = (not m e).mark.brackets := Int.toNat_of_nonneg nonneg.2
    have below := ih nonneg.1 family.left
    rw [flatten, openings_bracketed, openings_cons_of_neg rfl, postorder, List.map_append,
      List.sum_append, List.map_singleton, List.sum_singleton]
    omega
  | binary m op l r ihl ihr =>
    rw [postorder, List.forall_mem_append, List.forall_mem_append, List.forall_mem_singleton]
      at nonneg
    have own : (m.brackets.toNat : Int) = (binary m op l r).mark.brackets :=
      Int.toNat_of_nonneg nonneg.2
    have left := ihl nonneg.1.1 family.left
    have right := ihr nonneg.1.2 family.right
    rw [flatten, openings_bracketed, openings_append, openings_cons_of_neg rfl, postorder,
      List.map_append, List.map_append, List.sum_append, List.sum_append, List.map_singleton,
      List.sum_singleton]
    omega

/-! ### Parses -/

/-- A parse has kept all tokens, each in its place. -/
structure Parse.AccountsFor (p : Parse) (body : List Token) : Prop where
  /-- The record is the list of all nodes of the tree, operands first. -/
  nodes_eq : p.nodes.toList = p.root.postorder
  /-- Every node stands at the place of its number. -/
  id_eq : ∀ (i : Nat) (less : i < p.nodes.size), p.nodes[i].mark.id = i
  /-- No two nodes share a number. -/
  nodup_ids : (p.root.postorder.map (·.mark.id)).Nodup
  /-- There is a node for each operand and each operator. -/
  size_eq : p.nodes.size = body.countP fun t => t.kind.isOperand || t.kind.isOperator
  /-- Each opening bracket is counted on one mark. -/
  brackets_eq : (p.root.postorder.map (·.mark.brackets)).sum = body.countP (·.kind.isOpening)
  operators_eq : p.root.shape.operators = body.countP (·.kind.isOperator)
  /-- The leaves are the operands, in order. -/
  leaves_eq : p.root.leaves = (body.filter (·.kind.isOperand)).map Token.word

variable {stop : Token} {body : List Token} {p : Parse}

theorem recorded_of_parse (unmarked : ∀ t ∈ body, t.isStop = false) (marked : stop.isStop = true)
    (parsed : parse (body ++ [stop]) = .ok p) :
    p.nodes.toList = p.root.postorder ∧ Reading.Recorded p.root.postorder := by
  obtain ⟨s, reads, settled, -⟩ := (parse_append_eq_ok_iff unmarked marked).mp parsed
  have inStep := reads.inStep.settle .stop
  rw [settled] at inStep
  have nodes_eq : p.nodes.toList = p.root.postorder := by
    simpa [Reading.held, Reading.stored] using inStep.nodes_eq
  exact ⟨nodes_eq, nodes_eq ▸ inStep.recorded⟩

/-- The words of the nodes that a test picks are the tokens that it picks. -/
theorem filter_words_of_parse (unmarked : ∀ t ∈ body, t.isStop = false)
    (marked : stop.isStop = true) (parsed : parse (body ++ [stop]) = .ok p)
    {q : Token.Kind → Bool} (opening : ∀ b, q (.opening b) = false)
    (closing : ∀ b, q (.closing b) = false) :
    p.root.words.filter (fun w => q w.kind) = (body.filter fun t => q t.kind).map Token.word := by
  obtain ⟨-, family, spelled⟩ := spells_of_parse unmarked marked parsed
  rw [← filter_flatten opening closing p.root family, spelled, List.filter_map]
  rfl

/-- Every parse has kept all tokens. -/
theorem accountsFor_of_parse (unmarked : ∀ t ∈ body, t.isStop = false)
    (marked : stop.isStop = true) (parsed : parse (body ++ [stop]) = .ok p) :
    p.AccountsFor body := by
  obtain ⟨nodes_eq, recorded⟩ := recorded_of_parse unmarked marked parsed
  have picked {q : Token.Kind → Bool} := filter_words_of_parse (q := q) unmarked marked parsed
  have inPlace : Reading.Recorded p.nodes.toList := nodes_eq ▸ recorded
  refine ⟨nodes_eq, inPlace.id_eq, recorded.nodup_ids, ?_, ?_, ?_, ?_⟩
  -- Operands and operators are counted among the words without brackets, brackets among all words.
  · rw [← Array.length_toList, nodes_eq, ← length_words, ← filter_words_eq_self,
      picked (q := fun kind => kind.isOperand || kind.isOperator) (fun _ => rfl) (fun _ => rfl),
      List.length_map, List.countP_eq_length_filter]
  · obtain ⟨-, family, spelled⟩ := spells_of_parse unmarked marked parsed
    have nonneg : ∀ node ∈ p.root.postorder, 0 ≤ node.mark.brackets := by
      intro node mem
      obtain ⟨i, found⟩ := List.mem_iff_getElem?.mp mem
      exact (recorded i node found).2
    rw [← openings_flatten nonneg family, spelled, openings, List.countP_map]
    rfl
  · rw [← length_filter_words_isOperator, picked (fun _ => rfl) (fun _ => rfl), List.length_map,
      List.countP_eq_length_filter]
  · rw [← filter_words_isOperand, picked (fun _ => rfl) (fun _ => rfl)]

end Expr

end Sentential
