import Sentential.Connective
import Sentential.Distinct

/-!
# Formulas

Propositional formulas up to their brackets: what two texts have in common that differ only in
spelling, spacing and grouping. A formula is its own identity; its text is derived from it.

## Main definitions

* `Formula` — variables, constants, negations and binary connectives
* `Formula.text` — the text with brackets around the binary operands only
* `Formula.subformulas` — all occurrences, operands before what they belong to
* `Formula.vars`, `Formula.operators`, `Formula.depth` — counts and names
* `Formula.eval` — the truth value under a valuation
-/

namespace Sentential

/-- A propositional formula. -/
inductive Formula where
  | var (name : String)
  | const (value : Bool)
  | not (operand : Formula)
  | binary (op : Connective) (left right : Formula)
deriving DecidableEq, Repr, Inhabited

namespace Formula

/-- The text of a truth constant. -/
def constText (value : Bool) : String := if value then "1" else "0"

/-- A text in round brackets, if the condition holds. -/
def bracketedIf (condition : Bool) (s : String) : String := if condition then "(" ++ s ++ ")" else s

/-- Whether the root is a binary connective. -/
def isBinary : Formula → Bool
  | binary .. => true
  | _ => false

/-- Whether the root is a variable. -/
def isVar : Formula → Bool
  | var _ => true
  | _ => false

/-- Whether the root is a truth constant. -/
def isConst : Formula → Bool
  | const _ => true
  | _ => false

/-- The text of a formula, with brackets around exactly the binary operands. -/
def text : Formula → String
  | var name => name
  | const value => constText value
  | not f => negationSymbol ++ bracketedIf f.isBinary f.text
  | binary op l r =>
    bracketedIf l.isBinary l.text ++ " " ++ op.symbol ++ " " ++ bracketedIf r.isBinary r.text

/-- The immediate operands. -/
def operands : Formula → List Formula
  | var _ | const _ => []
  | not f => [f]
  | binary _ l r => [l, r]

/-- All occurrences of subformulas, operands before what they belong to, left before right. -/
def subformulas : Formula → List Formula
  | var name => [var name]
  | const value => [const value]
  | not f => f.subformulas ++ [not f]
  | binary op l r => l.subformulas ++ r.subformulas ++ [binary op l r]

/-- The variables of a formula, one entry for each occurrence. -/
def vars : Formula → List String
  | var name => [name]
  | const _ => []
  | not f => f.vars
  | binary _ l r => l.vars ++ r.vars

/-- The number of connectives, negations included. -/
def operators : Formula → Nat
  | var _ | const _ => 0
  | not f => f.operators + 1
  | binary _ l r => l.operators + r.operators + 1

/-- The greatest number of connectives above a leaf. -/
def depth : Formula → Nat
  | var _ | const _ => 0
  | not f => f.depth + 1
  | binary _ l r => max l.depth r.depth + 1

/-- The number of nodes. -/
def size : Formula → Nat
  | var _ | const _ => 1
  | not f => f.size + 1
  | binary _ l r => l.size + r.size + 1

/-- The name of what stands at the root. -/
def mainConnective : Formula → String
  | var _ => "VAR"
  | const _ => "CONST"
  | not _ => negationName
  | binary op _ _ => op.name

/-- The truth value of a formula under a valuation of the variables. -/
def eval (v : String → Bool) : Formula → Bool
  | var name => v name
  | const value => value
  | not f => !f.eval v
  | binary op l r => op.apply (l.eval v) (r.eval v)

theorem size_pos (f : Formula) : 0 < f.size := by cases f <;> simp [size]

theorem size_lt_of_mem_operands {f g : Formula} (h : g ∈ f.operands) : g.size < f.size := by
  cases f with
  | var | const => simp [operands] at h
  | not f =>
    simp only [operands, List.mem_singleton] at h
    simp [h, size]
  | binary op l r =>
    simp only [operands, List.mem_cons, List.not_mem_nil, or_false] at h
    rcases h with rfl | rfl <;> simp only [size] <;> omega

theorem vars_subset_of_mem_operands {f g : Formula} (h : g ∈ f.operands) : g.vars ⊆ f.vars := by
  cases f with
  | var | const => simp [operands] at h
  | not f =>
    simp only [operands, List.mem_singleton] at h
    simp [h, vars]
  | binary op l r =>
    simp only [operands, List.mem_cons, List.not_mem_nil, or_false] at h
    rcases h with rfl | rfl
    · exact List.subset_append_left _ _
    · exact List.subset_append_right _ _

theorem mem_subformulas_self (f : Formula) : f ∈ f.subformulas := by
  cases f <;> simp [subformulas]

/-- The value depends only on the variables that occur. -/
theorem eval_congr {v w : String → Bool} (f : Formula) (h : ∀ x ∈ f.vars, v x = w x) :
    f.eval v = f.eval w := by
  induction f with
  | var name => exact h name (by simp [vars])
  | const value => rfl
  | not f ih => simp only [eval, ih h]
  | binary op l r ihl ihr =>
    simp only [vars, List.mem_append] at h
    simp only [eval, ihl fun x hx => h x (Or.inl hx), ihr fun x hx => h x (Or.inr hx)]

/-! ### Order -/

/-- Formulas are ordered by their texts. -/
def precedes (a b : Formula) : Bool := decide (a.text < b.text)

/-- Before or equal. -/
def precedesOrEq (a b : Formula) : Bool := a.precedes b || decide (a = b)

/-- Neither before nor equal. -/
def follows (a b : Formula) : Bool := !a.precedes b && decide (a ≠ b)

/-- Not before. -/
def followsOrEq (a b : Formula) : Bool := !a.precedes b

end Formula

end Sentential
