import Sentential.Expr.Forms
import Sentential.Expr.Parse
import Sentential.Karnaugh
import Sentential.Shortcut
import Sentential.Tableau.Report
import Sentential.TruthTable.Edit

/-!
# Analysis

A formula text and declared variables in, everything that is known about the formula out. Whatever
is wrong with the text or the variables is reported before any work on tables or proofs.

## Main definitions

* `Limits` — how deep formulas and searches may nest
* `Analysis.declaredNames` — declared names as they are compared
* `Analysis.readExpr` — the expression of a text without unknown characters
* `Analysis.run`, `Analysis.prove` — the whole analysis, and a proof attempt alone
* `Analysis.replaceRows` — an analysis after its rows were replaced
-/

namespace Sentential

/-- How much nesting an analysis can cope with. This depends on the stack of the machine that it
runs on and not on the formula, so it is an argument of the analysis. -/
structure Limits where
  /-- Whether an expression is shallow enough to be analysed. -/
  admits : Expr → Bool
  /-- The greatest number of splits that may nest in a proof attempt. -/
  splits : Nat

/-- The limits where none are given. They are estimates: a formula that somebody writes stays far
below them, and one that the stack of no usual machine bears is far above. -/
def Limits.usual : Limits where
  admits e := decide (e.nesting ≤ 400)
  splits := 960

/-- Why there is no analysis: the formula is refused, or a proof search nests too deeply. -/
inductive AnalysisError where
  | diagnostic (d : Diagnostic)
  /-- The search for a proof nests too deeply; there may be a warning about its target. -/
  | searchLimit (warning : Option String)
deriving DecidableEq, Repr

/-- Figures on the size of a formula and its table. -/
structure Complexity where
  /-- The number of declared variables. -/
  vars : Nat
  /-- The number of connectives. -/
  operators : Nat
  /-- The depth of the formula. -/
  depth : Nat
  /-- The number of rows. -/
  rows : Nat
deriving DecidableEq, Repr

namespace Complexity

/-- The figures for a formula. -/
def of (f : Formula) (rows : Nat) (vars : List String) : Complexity :=
  ⟨vars.length, f.operators, f.depth, rows⟩

/-- Twice the score: two for each level, one for each connective and one and a half for each
variable. -/
def doubledScore (c : Complexity) : Nat := 4 * c.depth + 2 * c.operators + 3 * c.vars

/-- The score with one decimal. -/
def scoreText (c : Complexity) : String :=
  toString (c.doubledScore / 2) ++ if c.doubledScore % 2 = 0 then ".0" else ".5"

end Complexity

/-- What is known about a formula. -/
structure Analysis where
  /-- The expression. -/
  expr : Expr
  /-- The declared variables. -/
  vars : List String
  /-- Its truth table. -/
  table : TruthTable
  /-- The forms of an implication. -/
  forms : Option Forms
  /-- The Karnaugh map, for two to four variables. -/
  karnaugh : Option Karnaugh.Map
  /-- The rule that decides the formula at its root. -/
  shortcut : Option Shortcut
  /-- The size of the formula and its table. -/
  complexity : Complexity
  /-- The proof attempt, if one was asked for. -/
  report : Option Report

namespace Analysis

/-- Declared names in upper case, without blanks around them, each once; empty ones are dropped. -/
def declaredNames (names : List String) : List String :=
  distinct ((names.map (fun n => Text.upper (Text.trim n))).filter (fun n => decide (n ≠ "")))

/-- The expression of a formula text. A text that is blank, holds characters of no token, breaks the
grammar or nests too deeply is refused, and is asked about these in that order. -/
def readExpr (text : Option String) (limits : Limits := .usual) : Except Diagnostic Expr :=
  match text with
  | none => .error .emptyExpression
  | some s =>
    -- The text itself is tested: a text of blanks has no tokens to complain about.
    if Text.isAllBlank s then .error .emptyExpression
    else
      match (Token.scan s).skipped with
      | (pos, c) :: _ => .error (.unknownSymbol c pos)
      | [] =>
        match Expr.parseLinted (Token.scan s).tokens with
        | .error d => .error d
        | .ok p => if limits.admits p.root then .ok p.root else .error .nestingTooDeep

/-- Marks the failure of a diagnostic. -/
def diagnose {α : Type} (x : Except Diagnostic α) : Except AnalysisError α :=
  match x with
  | .ok a => .ok a
  | .error d => .error (.diagnostic d)

/-- The proof attempt on an expression. -/
def attemptProof (e : Expr) (vars : List String) (target : Target) (limits : Limits := .usual) :
    Except AnalysisError Report :=
  match Report.attemptWithin limits.splits e vars target with
  | some r => .ok r
  | none => .error (.searchLimit (Report.fallback? e target))

/-- The analysis of an expression over declared variables. -/
def ofExpr (e : Expr) (vars : List String) (settings : Settings) (target : Option Target)
    (limits : Limits := .usual) : Except AnalysisError Analysis := do
  let table ← diagnose
    (TruthTable.build e vars settings.order settings.subformulas settings.negation)
  let report ←
    match target with
    | none => pure none
    | some t => some <$> attemptProof e vars t limits
  return {
    expr := e
    vars
    table
    forms := e.forms? settings.negation
    karnaugh := Karnaugh.map? vars table.rows table.outputKey
    shortcut := e.shortcut?
    complexity := .of e.shape table.rows.length vars
    report }

/-- The analysis of a formula text. -/
def run (text : Option String) (declared : List String) (settings : Settings)
    (target : Option Target) (limits : Limits := .usual) : Except AnalysisError Analysis := do
  let e ← diagnose (readExpr text limits)
  ofExpr e (declaredNames declared) settings target limits

/-- A proof attempt on a formula text, without a table. -/
def prove (text : Option String) (declared : List String) (target : Target)
    (limits : Limits := .usual) : Except AnalysisError Report := do
  let e ← diagnose (readExpr text limits)
  let vars := declaredNames declared
  diagnose (TruthTable.requireDeclared e.shape vars)
  attemptProof e vars target limits

/-- The analysis after its rows were replaced: classification and map are computed anew. There must
be a row left. -/
def replaceRows (a : Analysis) (rows : List Row) : Option Analysis :=
  (TruthTable.classify? rows a.table.outputKey).map (fun classification =>
    { a with
      table := { a.table with rows, classification }
      karnaugh := Karnaugh.map? a.vars rows a.table.outputKey })

end Analysis

end Sentential
