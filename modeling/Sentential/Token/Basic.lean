import Sentential.Connective

/-!
# Tokens

The pieces of a formula text that carry meaning, each with its text and its place.

## Main definitions

* `Token.Kind` — what a token is
* `Token` — a token with its text and its offset
* `Token.shown` — a token as a message shows it
-/

namespace Sentential

/-- What a token is. -/
inductive Token.Kind where
  /-- A propositional variable. -/
  | name
  /-- A truth constant. -/
  | constant (value : Bool)
  /-- The negation sign. -/
  | negation
  /-- A binary connective. -/
  | binary (op : Connective)
  /-- An opening bracket. -/
  | opening (bracket : Bracket)
  /-- A closing bracket. -/
  | closing (bracket : Bracket)
  /-- The end of a text. -/
  | stop
deriving DecidableEq, Repr, Inhabited

/-- A token: its kind, its text and the offset at which it starts, counted in characters. -/
structure Token where
  /-- What the token is. -/
  kind : Token.Kind
  /-- The characters that spell it. -/
  text : String
  /-- The offset of its first character. -/
  pos : Nat
deriving DecidableEq, Repr, Inhabited

namespace Token

namespace Kind

/-- Whether the token is a variable or a constant. -/
def isOperand : Kind → Bool
  | name | constant _ => true
  | _ => false

/-- Whether the token is a connective of either arity. -/
def isOperator : Kind → Bool
  | negation | binary _ => true
  | _ => false

/-- Whether the token opens a group. -/
def isOpening : Kind → Bool
  | opening _ => true
  | _ => false

/-- Whether the token closes a group. -/
def isClosing : Kind → Bool
  | closing _ => true
  | _ => false

/-- Whether the token can begin an operand. -/
def isStarting : Kind → Bool
  | name | constant _ | negation | opening _ => true
  | _ => false

/-- Whether an operand can end with the token. -/
def isEnding : Kind → Bool
  | name | constant _ | closing _ => true
  | _ => false

/-- The display symbol of an operator. -/
def symbol? : Kind → Option String
  | negation => some negationSymbol
  | binary op => some op.symbol
  | _ => none

end Kind

/-- A token as a message shows it: an operator by its symbol, anything else by its text. -/
def shown (t : Token) : String := t.kind.symbol?.getD t.text

/-- Whether the token marks the end of a text. -/
def isStop (t : Token) : Bool := t.kind = .stop

/-- Whether the token is a variable. -/
def isName (t : Token) : Bool := t.kind = .name

/-- The names of the variables among some tokens, each once, in order. -/
def names (ts : List Token) : List String := (ts.filter isName).map text

end Token

end Sentential
