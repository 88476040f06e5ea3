import Sentential.Expr.Basic
import Sentential.Label

/-!
# Forms of an implication

The converse, the inverse and the contrapositive of an implication, as labels.

## Main definitions

* `Forms` — the four texts
* `Expr.forms?` — the forms of an expression whose root is an implication
-/

namespace Sentential

/-- The four forms of an implication. -/
structure Forms where
  /-- The implication itself. -/
  direct : String
  /-- Its sides exchanged. -/
  converse : String
  /-- Both sides negated. -/
  inverse : String
  /-- Its sides exchanged and negated. -/
  contrapositive : String
deriving DecidableEq, Repr

namespace Expr

/-- The text of an implication between two texts. -/
def impliesText (p q : String) : String := p ++ " " ++ Connective.implies.symbol ++ " " ++ q

/-- The text of the negation of an expression. -/
def negatedText (e : Expr) : String := negationSymbol ++ e.textAsOperand

/-- The forms of an implication, under a mode like any other label; other roots have none. -/
def forms? (mode : NegationMode) : Expr → Option Forms
  | binary _ .implies p q =>
    some
      { direct := mode.apply (impliesText p.textAsOperand q.textAsOperand)
        converse := mode.apply (impliesText q.textAsOperand p.textAsOperand)
        inverse := mode.apply (impliesText p.negatedText q.negatedText)
        contrapositive := mode.apply (impliesText q.negatedText p.negatedText) }
  | _ => none

end Expr

end Sentential
