import Sentential.Token.Basic

/-!
# Diagnostics

What can be wrong with a formula. Each diagnostic holds its cause; its code, its position and its
wording follow from that. The last cause is not the formula's: it stands for a look-up that finds
nothing.

## Main definitions

* `Diagnostic` — the causes
* `Diagnostic.code` — the class a diagnostic belongs to
* `Diagnostic.position` — the offset it points at
* `Diagnostic.text`, `Diagnostic.message` — its wording, without and with the position
-/

namespace Sentential

/-- A cause for which a formula is refused. -/
inductive Diagnostic where
  /-- There is nothing to read. -/
  | emptyExpression
  /-- A character belongs to no token. -/
  | unknownSymbol (symbol : Char) (pos : Nat)
  /-- A binary connective follows another operator. -/
  | adjacentOperators (previous operator : Token)
  /-- A binary connective has nothing to its left. -/
  | noLeftOperand (operator : Token)
  /-- Two operands follow each other. -/
  | missingOperator (previous next : Token)
  /-- A bracket is closed that was not opened. -/
  | unmatchedCloser (closer : Token)
  /-- A bracket is closed by one of another family. -/
  | mismatchedCloser (opener closer : Token)
  /-- A pair of brackets has nothing inside. -/
  | emptyGroup (opener closer : Token)
  /-- A group ends after an operator. -/
  | noRightOperand (operator closer : Token)
  /-- The text ends after an operator. -/
  | trailingOperator (operator : Token)
  /-- A bracket is never closed. -/
  | unclosedBracket (opener : Token)
  /-- A token stands where none of its kind can. -/
  | unexpectedToken (token : Token)
  /-- A group goes on where it must be closed. -/
  | expectedCloser (bracket : Bracket) (found : Token)
  /-- The tokens end where an operand must stand. -/
  | unexpectedEnd (stop : Token)
  /-- Some variables of the formula are not declared. -/
  | undeclared (names : List String)
  /-- Brackets and operators nest too deeply. -/
  | nestingTooDeep
  /-- A value is asked for that was never recorded. -/
  | unrecorded (key : String)
deriving DecidableEq, Repr

namespace Diagnostic

/-- The class that a diagnostic belongs to. -/
def code : Diagnostic → String
  | emptyExpression => "EmptyExpression"
  | unknownSymbol .. => "UnknownSymbol"
  | adjacentOperators .. => "AdjacentOperators"
  | noLeftOperand .. | noRightOperand .. | trailingOperator .. => "IncompleteExpression"
  | missingOperator .. => "MissingOperator"
  | unmatchedCloser .. | mismatchedCloser .. => "BracketMismatch"
  | emptyGroup .. => "EmptyGroup"
  | unclosedBracket .. => "UnclosedBracket"
  | unexpectedToken .. | expectedCloser .. | unexpectedEnd .. => "ParseFailure"
  | undeclared .. => "UndeclaredVariable"
  | nestingTooDeep => "NestingTooDeep"
  | unrecorded .. => "KeyError"

/-- The offset at which a diagnostic points, counted from zero. -/
def position : Diagnostic → Option Nat
  | emptyExpression => none
  | unknownSymbol _ pos => some pos
  | adjacentOperators _ operator => some operator.pos
  | noLeftOperand operator => some operator.pos
  | missingOperator _ next => some next.pos
  | unmatchedCloser closer => some closer.pos
  | mismatchedCloser _ closer => some closer.pos
  | emptyGroup opener _ => some opener.pos
  | noRightOperand operator _ => some operator.pos
  | trailingOperator operator => some operator.pos
  | unclosedBracket opener => some opener.pos
  | unexpectedToken token => some token.pos
  | expectedCloser _ found => some found.pos
  | unexpectedEnd stop => some stop.pos
  | undeclared _ => none
  | nestingTooDeep => none
  | unrecorded _ => none

/-- The wording of a diagnostic. -/
def text : Diagnostic → String
  | emptyExpression => "Please enter an expression."
  | unknownSymbol symbol _ => "Unknown symbol: \"" ++ symbol.toString ++ "\""
  | adjacentOperators previous operator =>
    "Operators '" ++ previous.shown ++ "' and '" ++ operator.shown ++
      "' are adjacent; an operand is missing between them"
  | noLeftOperand operator => "Operator '" ++ operator.shown ++ "' has no left operand"
  | missingOperator previous next =>
    "Missing operator between '" ++ previous.shown ++ "' and '" ++ next.shown ++
      "'; did you mean '" ++ previous.text ++ " ∧ " ++ next.text ++ "'?"
  | unmatchedCloser closer => "Closing '" ++ closer.text ++ "' has no matching opener"
  | mismatchedCloser opener closer =>
    "'" ++ opener.text ++ "' at position " ++ toString (opener.pos + 1) ++ " is closed by '" ++
      closer.text ++ "'"
  | emptyGroup opener closer => "Empty group '" ++ opener.text ++ closer.text ++ "'"
  | noRightOperand operator closer =>
    "Operator '" ++ operator.shown ++ "' has no right operand before '" ++ closer.text ++ "'"
  | trailingOperator operator => "Expression ends with operator '" ++ operator.shown ++ "'"
  | unclosedBracket opener => "'" ++ opener.text ++ "' is never closed"
  | unexpectedToken token => "Unexpected '" ++ token.text ++ "'"
  | expectedCloser bracket _ => "Expected '" ++ bracket.closer.toString ++ "'"
  | unexpectedEnd _ => "Unexpected end of expression"
  | undeclared names => "Undeclared: " ++ ", ".intercalate names
  | nestingTooDeep => "Formula nests too deeply to analyze."
  | unrecorded key => key

/-- The wording with the position, counted from one. -/
def message (d : Diagnostic) : String :=
  match d.position with
  | none => d.text
  | some pos => d.text ++ " (position " ++ toString (pos + 1) ++ ")"

end Diagnostic

end Sentential
