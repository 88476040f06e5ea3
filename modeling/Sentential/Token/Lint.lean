import Sentential.Diagnostic

/-!
# Linting tokens

One scan over the tokens of a formula finds the first thing that is wrong with it. The scan
remembers the previous token and the brackets that are still open. End marks are ignored wherever
they stand.

## Main definitions

* `Token.lintStep` — what one token does to the open brackets, or what is wrong with it
* `Token.lintEnd` — what is wrong if the tokens end here
* `Token.lint` — the first problem of a list of tokens
-/

namespace Sentential.Token

/-- Reads one token after `previous`, inside the open brackets `opened`, innermost first. -/
def lintStep (previous : Option Token) (opened : List Token) (t : Token) :
    Except Diagnostic (List Token) :=
  match t.kind with
  | .binary _ =>
    match previous with
    | none => .error (.noLeftOperand t)
    | some p =>
      if p.kind.isOperator then .error (.adjacentOperators p t)
      else if p.kind.isOpening then .error (.noLeftOperand t)
      else .ok opened
  | .closing bracket =>
    match opened with
    | [] => .error (.unmatchedCloser t)
    | opener :: outer =>
      -- The family is checked before the inside: `( & ]` is a mismatch.
      if opener.kind ≠ .opening bracket then .error (.mismatchedCloser opener t)
      else
        match previous with
        | none => .ok outer
        | some p =>
          -- The previous token opens a bracket, so it is the innermost opener itself.
          if p.kind.isOpening then .error (.emptyGroup opener t)
          else if p.kind.isOperator then .error (.noRightOperand p t)
          else .ok outer
  | .stop => .ok opened
  | _ =>
    match previous with
    | some p =>
      if p.kind.isEnding then .error (.missingOperator p t)
      else if t.kind.isOpening then .ok (t :: opened) else .ok opened
    | none => if t.kind.isOpening then .ok (t :: opened) else .ok opened

/-- What is wrong if the tokens end after `previous`, inside the open brackets `opened`. -/
def lintEnd (previous : Option Token) (opened : List Token) : Option Diagnostic :=
  match previous.filter (fun p => p.kind.isOperator), opened with
  | some p, _ => some (.trailingOperator p)
  | none, opener :: _ => some (.unclosedBracket opener)
  | none, [] => none

/-- The first problem of the remaining tokens. -/
def lintFrom (previous : Option Token) (opened : List Token) : List Token → Option Diagnostic
  | [] => lintEnd previous opened
  | t :: rest =>
    match lintStep previous opened t with
    | .error d => some d
    | .ok opened => lintFrom (some t) opened rest

/-- The first problem of a list of tokens, if there is one. -/
def lint (ts : List Token) : Option Diagnostic :=
  match ts.filter (fun t => !t.isStop) with
  | [] => some .emptyExpression
  | body => lintFrom none [] body

end Sentential.Token
