import Sentential.Formula.Basic

/-!
# Expressions

An expression is a formula as it was written: every node carries a mark with its number and with the
brackets that the text put around it. Marks decide how an expression is shown and nothing else;
`Expr.shape` forgets them.

## Main definitions

* `Mark`, `Expr` — marked formulas
* `Expr.shape` — the formula without its marks
* `Expr.text` — the text with the brackets of the marks
* `Expr.postorder` — all nodes, operands first
-/

namespace Sentential

/-- What the writing of a formula adds to a node. -/
structure Mark where
  /-- The number of the node; a node that was not read from a text has none and shows `-1`. -/
  id : Int := -1
  /-- The number of bracket pairs around the node; a negative number counts as zero. -/
  brackets : Int := 0
deriving DecidableEq, Repr, Inhabited

namespace Mark

/-- A text inside the brackets of a mark. -/
def enclose (m : Mark) (s : String) : String :=
  String.ofList (List.replicate m.brackets.toNat '(') ++ s ++
    String.ofList (List.replicate m.brackets.toNat ')')

/-- Whether there are brackets around the node. -/
def isGrouped (m : Mark) : Bool := decide (0 < m.brackets)

end Mark

/-- A formula with a mark on every node. -/
inductive Expr where
  | var (mark : Mark) (name : String)
  | const (mark : Mark) (value : Bool)
  | not (mark : Mark) (operand : Expr)
  | binary (mark : Mark) (op : Connective) (left right : Expr)
deriving DecidableEq, Repr, Inhabited

namespace Expr

/-- The mark of the root. -/
def mark : Expr → Mark
  | var m _ | const m _ | not m _ | binary m _ _ _ => m

/-- The same expression with another mark on the root. -/
def withMark (m : Mark) : Expr → Expr
  | var _ name => var m name
  | const _ value => const m value
  | not _ e => not m e
  | binary _ op l r => binary m op l r

/-- The formula without its marks. -/
def shape : Expr → Formula
  | var _ name => .var name
  | const _ value => .const value
  | not _ e => .not e.shape
  | binary _ op l r => .binary op l.shape r.shape

/-- The immediate operands. -/
def operands : Expr → List Expr
  | var .. | const .. => []
  | not _ e => [e]
  | binary _ _ l r => [l, r]

/-- Whether the root is a binary connective without brackets around it. -/
def isBare : Expr → Bool
  | binary m .. => !m.isGrouped
  | _ => false

/-- The text of an expression: the brackets of its marks, and one more pair around a binary operand
that has none. -/
def text : Expr → String
  | var m name => m.enclose name
  | const m value => m.enclose (Formula.constText value)
  | not m e => m.enclose (negationSymbol ++ Formula.bracketedIf e.isBare e.text)
  | binary m op l r =>
    m.enclose (Formula.bracketedIf l.isBare l.text ++ " " ++ op.symbol ++ " " ++
      Formula.bracketedIf r.isBare r.text)

/-- The text of an expression as an operand: a bare binary one gets brackets. -/
def textAsOperand (e : Expr) : String := Formula.bracketedIf e.isBare e.text

/-- All nodes, operands before what they belong to, left before right. -/
def postorder : Expr → List Expr
  | var m name => [var m name]
  | const m value => [const m value]
  | not m e => e.postorder ++ [not m e]
  | binary m op l r => l.postorder ++ r.postorder ++ [binary m op l r]

/-- The greatest number of brackets and connectives around a leaf. -/
def nesting : Expr → Nat
  | var m _ | const m _ => m.brackets.toNat
  | not m e => m.brackets.toNat + e.nesting + 1
  | binary m _ l r => m.brackets.toNat + max l.nesting r.nesting + 1

theorem map_shape_postorder (e : Expr) : e.postorder.map shape = e.shape.subformulas := by
  induction e with
  | var | const => rfl
  | not m e ih => simp [postorder, Formula.subformulas, shape, ih]
  | binary m op l r ihl ihr => simp [postorder, Formula.subformulas, shape, ihl, ihr]

theorem shape_withMark (m : Mark) (e : Expr) : (e.withMark m).shape = e.shape := by
  cases e <;> rfl

/-- Expressions in the order of their formulas; equal ones keep their order. -/
def sort (es : List Expr) : List Expr :=
  es.mergeSort (fun a b => !b.shape.precedes a.shape)

end Expr

end Sentential
