import Sentential.Expr.Basic
import Sentential.Token.Lint
import Sentential.Token.Scan

/-!
# Reading expressions

Tokens are read from left to right, one at a time. What has been read is a stack of frames —
negations that wait for their operand, left operands that wait for the right one, and open groups —
and possibly an operand that is complete. A token after an operand first completes all frames that
bind at least as tightly as it does, so that all connectives associate to the left. Nodes are
numbered in the order of their completion, and a pair of brackets is counted on the mark of the node
inside.

## Main definitions

* `Reading` — the state between two tokens
* `Reading.step` — what one token does
* `Expr.Parse`, `Expr.Failure` — the two outcomes
* `Expr.parse` — the expression that a list of tokens spells
* `Expr.ofText` — the expression that a formula text spells
-/

namespace Sentential

/-- What waits to the left of the next token. -/
inductive Frame where
  /-- A negation whose operand is being read. -/
  | negation
  /-- A left operand and its connective, whose right operand is being read. -/
  | left (op : Connective) (operand : Expr)
  /-- An open group. -/
  | group (bracket : Bracket)
deriving DecidableEq, Repr

/-- The state between two tokens. -/
structure Reading where
  /-- What waits, the innermost frame first. -/
  frames : List Frame
  /-- The operand that is complete, if the last token ended one. -/
  operand : Option Expr
  /-- All nodes so far, each at the place of its number. -/
  nodes : Array Expr

namespace Reading

/-- The state before the first token. -/
def start : Reading := ⟨[], none, #[]⟩

/-- Whether a connective on the stack is completed by the token that follows its right operand. -/
def completes (next : Token.Kind) (op : Connective) : Bool :=
  match next with
  | .binary op' => op'.strength ≤ op.strength
  | _ => true

/-- Completes frames around the operand `e`, as long as the next token allows it. -/
def fold (next : Token.Kind) (frames : List Frame) (e : Expr) (nodes : Array Expr) : Reading :=
  match frames with
  -- A negation binds tighter than any connective, so every token completes it.
  | .negation :: outer =>
    let node := Expr.not ⟨nodes.size, 0⟩ e
    fold next outer node (nodes.push node)
  | .left op l :: outer =>
    -- A connective of equal strength completes the one before it: all associate to the left.
    if completes next op then
      let node := Expr.binary ⟨nodes.size, 0⟩ op l e
      fold next outer node (nodes.push node)
    else ⟨frames, some e, nodes⟩
  | _ => ⟨frames, some e, nodes⟩

/-- Completes all that the next token completes. -/
def settle (s : Reading) (next : Token.Kind) : Reading :=
  match s.operand with
  | some e => fold next s.frames e s.nodes
  | none => s

/-- Adds a leaf, which is a complete operand. -/
def leaf (s : Reading) (make : Mark → Expr) : Reading :=
  let node := make ⟨s.nodes.size, 0⟩
  { s with operand := some node, nodes := s.nodes.push node }

/-- Counts one more pair of brackets on a node and closes the group around it. -/
def close (outer : List Frame) (e : Expr) (nodes : Array Expr) : Reading :=
  let node := e.withMark { e.mark with brackets := e.mark.brackets + 1 }
  -- The node was recorded without this pair of brackets; its entry is replaced.
  ⟨outer, some node, nodes.setIfInBounds e.mark.id.toNat node⟩

/-- What one token does to a settled state. -/
def step (s : Reading) (t : Token) : Except Diagnostic Reading :=
  match s.operand with
  | none =>
    match t.kind with
    | .name => .ok (s.leaf (Expr.var · t.text))
    | .constant value => .ok (s.leaf (Expr.const · value))
    | .negation => .ok { s with frames := .negation :: s.frames }
    | .opening bracket => .ok { s with frames := .group bracket :: s.frames }
    -- An end mark never comes here from a parse, which stops before the first one.
    | .stop => .error (.unexpectedEnd t)
    | _ => .error (.unexpectedToken t)
  | some e =>
    match t.kind with
    | .binary op => .ok ⟨.left op e :: s.frames, none, s.nodes⟩
    | kind =>
      match s.frames with
      | .group bracket :: outer =>
        if kind = .closing bracket then .ok (close outer e s.nodes)
        else .error (.expectedCloser bracket t)
      | _ => .error (.unexpectedToken t)

/-- The expression of a settled state, if it is complete before the end mark. -/
def finish (s : Reading) (stop : Token) : Except Diagnostic Expr :=
  match s.operand, s.frames with
  | none, _ => .error (.unexpectedEnd stop)
  | some _, .group bracket :: _ => .error (.expectedCloser bracket stop)
  | some e, _ => .ok e

end Reading

namespace Expr

/-- A completed parse. -/
structure Parse where
  /-- The expression. -/
  root : Expr
  /-- All nodes, each at the place of its number. -/
  nodes : Array Expr
  /-- The number of tokens before the end mark. -/
  index : Nat

/-- A failed parse. -/
structure Failure where
  /-- What is wrong. -/
  diagnostic : Diagnostic
  /-- The nodes completed so far. -/
  nodes : Array Expr
  /-- The number of tokens before the one that is refused. -/
  index : Nat

/-- The tokens before the first end mark, and that mark. Without one, it is put behind the last
token. -/
def splitAtStop (after : Nat) : List Token → List Token × Token
  | [] => ([], ⟨.stop, "", after⟩)
  | t :: rest =>
    if t.isStop then ([], t)
    else
      let (body, stop) := splitAtStop (t.pos + 1) rest
      (t :: body, stop)

/-- Reads the remaining tokens from a state that has consumed `index` of them. -/
def parseFrom (stop : Token) (s : Reading) (index : Nat) : List Token → Except Failure Parse
  | [] =>
    let s := s.settle .stop
    match s.finish stop with
    | .ok root => .ok ⟨root, s.nodes, index⟩
    | .error d => .error ⟨d, s.nodes, index⟩
  | t :: rest =>
    let s := s.settle t.kind
    match s.step t with
    | .ok s => parseFrom stop s (index + 1) rest
    | .error d => .error ⟨d, s.nodes, index⟩

/-- The expression that the tokens up to the first end mark spell. -/
def parse (ts : List Token) : Except Failure Parse :=
  let (body, stop) := splitAtStop 0 ts
  parseFrom stop Reading.start 0 body

/-- The parse of linted tokens. -/
def parseLinted (ts : List Token) : Except Diagnostic Parse :=
  match Token.lint ts with
  | some d => .error d
  | none =>
    match parse ts with
    | .ok p => .ok p
    | .error f => .error f.diagnostic

/-- The parse of a formula text in which characters that belong to no token are dropped. -/
def parseText (s : String) : Except Diagnostic Parse := parseLinted (Token.tokenize s)

/-- The expression that a formula text spells. -/
def ofText (s : String) : Except Diagnostic Expr :=
  match parseText s with
  | .ok p => .ok p.root
  | .error d => .error d

end Expr

end Sentential
