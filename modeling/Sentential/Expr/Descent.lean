import Sentential.Expr.Parse

/-!
# Reading by recursive descent

The grammar of expressions has a level for each connective, the loosest outside. An expression of a
level is a row of expressions of the next tighter level with the connective between them. Inside of
all levels there are negations and then names, constants and groups; a group holds an expression of
the outermost level. A descent reads each level by a call of its own. It finds the next token by its
place in the list, and goes on to the following place when it has used the token.

On a machine such a reader can go wrong in ways that have nothing to do with the tokens: a place
behind the last token is looked up, a loop does not end, or there is no stack for a further call.
These are outcomes of their own here, apart from the refusal of a token. `Expr.descend_eq_parse`
says that none of them happens on a stack that is deep enough, and that the descent then comes to
what the reader with a stack of frames comes to.

## Main definitions

* `Descent.Cursor` — where a descent stands, and what it has recorded
* `Descent.Halt` — why a descent has no expression
* `Descent.leftAssoc`, `Descent.factor`, `Descent.level` — the levels of the grammar
* `Expr.descend` — the expression that a list of tokens spells, on a stack of a given depth
-/

namespace Sentential

/-- The connectives in the order in which a descent meets them. -/
def Connective.loosestFirst : List Connective := [iff, implies, xor, or, and]

theorem Connective.mem_loosestFirst (op : Connective) : op ∈ loosestFirst := by
  cases op <;> decide

/-- The tokens with an end mark behind the last one, unless that is one itself. -/
def Expr.ended (ts : List Token) : List Token :=
  match ts.getLast? with
  | some t => if t.isStop then ts else ts ++ [⟨.stop, "", t.pos + 1⟩]
  | none => [⟨.stop, "", 0⟩]

namespace Descent

/-- Where a descent stands. -/
structure Cursor where
  /-- The place of the next token. -/
  place : Nat
  /-- All nodes so far, each at the place of its number. -/
  nodes : Array Expr

/-- Why a descent has no expression. -/
inductive Halt where
  /-- A token is refused. -/
  | refused (f : Expr.Failure)
  /-- A token behind the last one is looked up. -/
  | overrun
  /-- A loop goes round more often than there are tokens. -/
  | endless
  /-- There is no stack for a further call. -/
  | exhausted

/-- What a part of a descent comes to: an operand and the place behind it, unless it halts. -/
abbrev Result : Type := Except Halt (Expr × Cursor)

/-- The next token. -/
def current (ts : List Token) (c : Cursor) : Except Halt Token :=
  match ts[c.place]? with
  | some t => .ok t
  | none => .error .overrun

/-- The cursor behind the next token; no cursor goes behind an end mark. -/
def advance (ts : List Token) (c : Cursor) : Except Halt Cursor := do
  let t ← current ts c
  return if t.isStop then c else { c with place := c.place + 1 }

/-- A new node, which is given the next number. -/
def make (c : Cursor) (factory : Mark → Expr) : Expr × Cursor :=
  let node := factory ⟨c.nodes.size, 0⟩
  (node, { c with nodes := c.nodes.push node })

/-- Refuses the next token. -/
def refuse {α : Type} (c : Cursor) (d : Diagnostic) : Except Halt α :=
  .error (.refused ⟨d, c.nodes, c.place⟩)

/-- Joins operands from the left as long as the connective stands between them. -/
def leftAssoc (ts : List Token) (op : Connective) (operand : Cursor → Result) :
    Nat → Expr → Cursor → Result
  | 0, _, _ => .error .endless
  | rounds + 1, left, c => do
    let t ← current ts c
    if t.kind = .binary op then
      let c ← advance ts c
      let (right, c) ← operand c
      let (node, c) := make c (Expr.binary · op left right)
      leftAssoc ts op operand rounds node c
    else return (left, c)

/-- Reads the closing bracket of a group and counts the pair on the node inside. -/
def closeGroup (ts : List Token) (bracket : Bracket) (inner : Expr) (c : Cursor) : Result := do
  let closer ← current ts c
  if closer.kind = .closing bracket then
    let c ← advance ts c
    -- The node inside was recorded without this pair of brackets; its entry is replaced.
    let node := inner.withMark { inner.mark with brackets := inner.mark.brackets + 1 }
    return (node, { c with nodes := c.nodes.setIfInBounds inner.mark.id.toNat node })
  else refuse c (.expectedCloser bracket closer)

/-- Reads a name, a constant or a group with a whole expression inside. -/
def factor (ts : List Token) (whole : Cursor → Result) (c : Cursor) : Result := do
  let t ← current ts c
  match t.kind with
  | .name =>
    let c ← advance ts c
    return make c (Expr.var · t.text)
  | .constant value =>
    let c ← advance ts c
    return make c (Expr.const · value)
  | .opening bracket =>
    let c ← advance ts c
    let (inner, c) ← whole c
    closeGroup ts bracket inner c
  | .stop => refuse c (.unexpectedEnd t)
  | _ => refuse c (.unexpectedToken t)

/-- Reads an expression of the levels of the given connectives, the loosest of them outside, with no
more than `depth` calls inside of each other. -/
def level (ts : List Token) : Nat → List Connective → Cursor → Result
  | 0, _, _ => .error .exhausted
  | depth + 1, op :: tighter, c => do
    let (left, c) ← level ts depth tighter c
    leftAssoc ts op (level ts depth tighter) ts.length left c
  | depth + 1, [], c => do
    let t ← current ts c
    if t.kind = .negation then
      let c ← advance ts c
      let (operand, c) ← level ts depth [] c
      return make c (Expr.not · operand)
    else factor ts (level ts depth Connective.loosestFirst) c

end Descent

/-- The expression that the tokens up to the first end mark spell, by a descent on a stack of a
given depth. -/
def Expr.descend (depth : Nat) (ts : List Token) : Except Descent.Halt Expr.Parse := do
  let ts := Expr.ended ts
  let (root, c) ← Descent.level ts depth Connective.loosestFirst ⟨0, #[]⟩
  let t ← Descent.current ts c
  if t.isStop then return ⟨root, c.nodes, c.place⟩
  else Descent.refuse c (.unexpectedToken t)

end Sentential
