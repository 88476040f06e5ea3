import Sentential.Diagnostic
import Sentential.Tableau.Basic
import Sentential.Text.Blank
import Sentential.Text.Upper
import Sentential.Token.Scan

/-!
# Proof reports

A proof attempt assumes the opposite of what is to be shown and asks for a proof tree. If the tree
is closed the claim is proven; otherwise its first complete leaf gives a counter-example, in which
every variable that the leaf does not force is free.

## Main definitions

* `Target` — what is to be shown
* `Report` — the outcome of an attempt
* `Report.attemptWithin` — the attempt on an expression, unless the search nests too deeply
-/

namespace Sentential

/-- What a proof attempt is to show. -/
inductive Target where
  | tautology
  | contradiction
  | implication
  | equivalence
  | contingency
deriving DecidableEq, Repr, Inhabited

namespace Target

/-- The targets. -/
def all : List Target := [tautology, contradiction, implication, equivalence, contingency]

/-- The name of a target. -/
def name : Target → String
  | tautology => "Tautology"
  | contradiction => "Contradiction"
  | implication => "Implication"
  | equivalence => "Equivalence"
  | contingency => "Contingency"

/-- The words that name a target: its name in lower case, and two common synonyms. -/
def words : List (String × Target) :=
  [("absurdity", contradiction), ("validity", implication)] ++
    all.map (fun t => (Text.lowerAscii t.name, t))

/-- The target that a text names, in any case and with blanks around it. -/
def ofText? (s : String) : Option Target := words.lookup (Text.lowerAscii (Text.trim s))

/-- The message about a text that names no target, given as a message shows it. -/
def unknownMessage (shown : String) : String := "Unknown proof type: " ++ shown

end Target

/-- For a contingent formula, an assignment for each truth value. -/
structure Witnesses where
  /-- An assignment that makes the formula false. -/
  falsifying : OrderedMap String Bool
  /-- An assignment that makes the formula true. -/
  satisfying : OrderedMap String Bool

/-- The outcome of a proof attempt. -/
structure Report where
  /-- What was shown or refuted. -/
  target : Target
  /-- The heading of the attempt. -/
  title : String
  /-- What the attempt assumes, as texts with their values. -/
  assumptions : List (String × Bool)
  /-- The proof tree. -/
  root : Branch
  /-- Whether the target is shown. -/
  proven : Bool
  /-- The outcome in words. -/
  summary : String
  /-- An assignment that refutes the target. -/
  counterExample : Option (OrderedMap String Bool) := none
  /-- The variables on which the refutation rests, in code-point order. -/
  forced : List String := []
  /-- The assignments that show a contingency. -/
  witnesses : Option Witnesses := none
  /-- Why another target was attempted than the one that was asked for. -/
  warning : Option String := none

namespace Report

/-- The name of the outcome. -/
def result (r : Report) : String := if r.proven then "Proven" else "Disproven"

/-- An assignment of all listed variables: forced values are kept, free variables become false. -/
def complete (partialValues : List (String × Bool)) (vars : List String) :
    OrderedMap String Bool :=
  let given := OrderedMap.ofList partialValues
  let listed := OrderedMap.ofList (vars.map (fun v => (v, (given.get? v).getD false)))
  -- Forced variables that are not listed are kept behind the listed ones.
  partialValues.foldl (fun m e => m.insertIfAbsent e.1 e.2) listed

/-- The report on a finished proof tree. -/
def ofTree (target : Target) (title : String) (assumptions : List (String × Bool)) (root : Branch)
    (vars : List String) (provenText disprovenText : String) : Report :=
  let proven := root.isClosed
  let leaf := if proven then none else root.openLeaf?
  { target, title, assumptions, root, proven
    summary := if proven then provenText else disprovenText
    counterExample := leaf.map (fun l => complete l.variableValues vars)
    forced := (leaf.map (fun l => Token.sortedNames (l.variableValues.map Prod.fst))).getD [] }

/-- The attempt that assumes one value of the whole expression. -/
def single (limit : Nat) (e : Expr) (vars : List String) (target : Target) (title : String) :
    Option Report :=
  let assumed := decide (target = .contradiction)
  (Branch.solveWithin limit {} [⟨e, assumed⟩]).map (fun root =>
    ofTree target title [(e.text, assumed)] root vars
      ("All branches led to contradictions. The statement IS a " ++ target.name ++ ".")
      ("Found a consistent assignment (Counter-example). The statement is NOT a " ++ target.name ++
        "."))

/-- The attempt that assumes a true antecedent and a false consequent. -/
def ofImplication (limit : Nat) (l r : Expr) (vars : List String) : Option Report :=
  (Branch.solveWithin limit {} (Obligation.both l true r false)).map (fun root =>
    ofTree .implication "Prove Argument Validity (T.I.)" [(l.text, true), (r.text, false)] root
      vars
      "Assuming true premises and a false conclusion is contradictory. The argument IS valid."
      "Found premises true with the conclusion false. The argument is NOT valid.")

/-- The attempt that tries both ways in which the sides of an equivalence can differ. -/
def ofEquivalence (limit : Nat) (e l r : Expr) (vars : List String) : Option Report :=
  let root : Branch := { steps := [.assumption e] }
  let solveCase (obs : List Obligation) : Option Branch :=
    Branch.solveWithin limit (root.child (Branch.caseLabel obs)) obs
  match solveCase (Obligation.both l true r false) with
  | none => none
  | some x =>
    (solveCase (Obligation.both l false r true)).map (fun y =>
      ofTree .equivalence "Prove Tautological Equivalence" [(e.text, false)] (root.join [x, y])
        vars
        "Both scenarios of differing values led to contradictions. Therefore, LHS ⇔ RHS."
        "Found a case where LHS ≠ RHS. Therefore, they are NOT equivalent.")

/-- The attempt that refutes both extremes. -/
def ofContingency (limit : Nat) (e : Expr) (vars : List String) : Option Report := do
  let title := "Check Contingency"
  let always ← single limit e vars .tautology "Prove Tautology"
  if always.proven then
    return {
      target := .contingency, title, assumptions := [(e.text, false)], root := always.root
      proven := false
      summary :=
        "The statement is a Tautology (Always True), therefore it is NOT a Contingency." }
  -- The formula can be false; it remains to find out whether it can be true.
  let never ← single limit e vars .contradiction "Prove Absurdity (Contradiction)"
  if never.proven then
    return {
      target := .contingency, title, assumptions := [(e.text, true)], root := never.root
      proven := false
      summary :=
        "The statement is a Contradiction (Always False), therefore it is NOT a Contingency." }
  return {
    target := .contingency, title, assumptions := [(e.text, false)], root := always.root
    proven := true
    summary := "Found cases for both True and False values. The statement IS a Contingency."
    witnesses := some ⟨always.counterExample.getD .empty, never.counterExample.getD .empty⟩ }

/-- The warning that a tautology is attempted instead, when the root of an expression does not fit
the target. -/
def fallback? (e : Expr) (target : Target) : Option String :=
  match target, e with
  | .implication, .binary _ .implies _ _ => none
  | .implication, _ =>
    some "Implication proof needs an implication root; falling back to Tautology"
  | .equivalence, .binary _ .iff _ _ => none
  | .equivalence, _ =>
    some "Equivalence proof needs a biconditional root; falling back to Tautology"
  | _, _ => none

/-- The attempt to show a target, unless more than `limit` splits nest. -/
def attemptWithin (limit : Nat) (e : Expr) (vars : List String) (target : Target) :
    Option Report :=
  match target, e with
  | .contingency, _ => ofContingency limit e vars
  | .implication, .binary _ .implies l r => ofImplication limit l r vars
  | .equivalence, .binary _ .iff l r => ofEquivalence limit e l r vars
  | .implication, _ | .equivalence, _ =>
    (single limit e vars .tautology "Prove Tautology (Fallback)").map (fun r =>
      { r with warning := fallback? e target })
  | .contradiction, _ => single limit e vars .contradiction "Prove Absurdity (Contradiction)"
  | .tautology, _ => single limit e vars .tautology "Prove Tautology"

/-- The message about an attempt whose splits nest too deeply. -/
def limitMessage : String := "Proof search exceeded the recursion limit"

end Report

end Sentential
