/-!
# Connectives and brackets

The five binary connectives with their names, symbols, truth functions and binding strengths, and
the three families of brackets. Negation is a connective too, but it has one operand and is kept
apart.

## Main definitions

* `Connective` — the binary connectives
* `Connective.apply` — their truth functions
* `Connective.strength` — how tightly they bind
* `Bracket` — the families of brackets
-/

namespace Sentential

/-- A binary connective. -/
inductive Connective where
  | and
  | or
  | xor
  | implies
  | iff
deriving DecidableEq, Repr, Inhabited

namespace Connective

/-- The connectives. -/
def all : List Connective := [and, or, xor, implies, iff]

/-- The name of a connective. -/
def name : Connective → String
  | and => "AND"
  | or => "OR"
  | xor => "XOR"
  | implies => "IMPLIES"
  | iff => "IFF"

/-- The character that stands for a connective in a rendered formula. -/
def sign : Connective → Char
  | and => '∧'
  | or => '∨'
  | xor => '⊕'
  | implies => '→'
  | iff => '↔'

/-- The sign as a text. -/
def symbol (op : Connective) : String := String.singleton op.sign

/-- The truth function of a connective. -/
def apply : Connective → Bool → Bool → Bool
  | and, a, b => a && b
  | or, a, b => a || b
  | xor, a, b => a != b
  | implies, a, b => !a || b
  | iff, a, b => a == b

/-- How tightly a connective binds: the greater, the tighter. -/
def strength : Connective → Nat
  | iff => 0
  | implies => 1
  | xor => 2
  | or => 3
  | and => 4

theorem mem_all (op : Connective) : op ∈ all := by cases op <;> decide

end Connective

/-- The sign of negation. -/
def negationSign : Char := '¬'

/-- The sign of negation as a text. -/
def negationSymbol : String := String.singleton negationSign

/-- The name of negation. -/
def negationName : String := "NOT"

/-- A family of brackets. Each closes only itself. -/
inductive Bracket where
  | paren
  | square
  | brace
deriving DecidableEq, Repr, Inhabited

namespace Bracket

/-- The families. -/
def all : List Bracket := [paren, square, brace]

/-- The opening character. -/
def opener : Bracket → Char
  | paren => '('
  | square => '['
  | brace => '\x7b'

/-- The closing character. -/
def closer : Bracket → Char
  | paren => ')'
  | square => ']'
  | brace => '\x7d'

/-- The two characters of a family. -/
def pair (b : Bracket) : String := String.ofList [b.opener, b.closer]

theorem mem_all (b : Bracket) : b ∈ all := by cases b <;> decide

end Bracket

end Sentential
