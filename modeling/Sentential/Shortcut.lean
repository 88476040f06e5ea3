import Sentential.Expr.Basic

/-!
# Shortcuts

Formulas whose value, or a simpler equal, can be read off the root and its immediate operands
without any table.

## Main definitions

* `Shortcut` — the rules, with the operand that a reduction leaves
* `Shortcut.Verdict` — what a rule decides
* `Expr.shortcut?` — the first rule that applies
-/

namespace Sentential

/-- A rule that decides a formula at its root. -/
inductive Shortcut where
  /-- The formula is a constant. -/
  | constant (value : Bool)
  /-- The antecedent of an implication is false. -/
  | falseAntecedent
  /-- The consequent of an implication is true. -/
  | trueConsequent
  /-- The antecedent of an implication is true, so that the consequent remains. -/
  | trueAntecedent (consequent : Expr)
  /-- A formula implies itself. -/
  | selfImplication
  /-- An operand of a conjunction is false. -/
  | falseConjunct
  /-- A formula stands beside its negation in a conjunction. -/
  | complementaryConjuncts
  /-- An operand of a disjunction is true. -/
  | trueDisjunct
  /-- A formula stands beside its negation in a disjunction. -/
  | complementaryDisjuncts
deriving DecidableEq, Repr

namespace Shortcut

/-- What a rule decides: the value, or an expression with the same value. -/
inductive Verdict where
  | value (b : Bool)
  | reduced (e : Expr)
deriving DecidableEq, Repr

/-- What a rule decides. -/
def verdict : Shortcut → Verdict
  | constant b => .value b
  | falseAntecedent | trueConsequent | selfImplication => .value true
  | trueAntecedent e => .reduced e
  | falseConjunct | complementaryConjuncts => .value false
  | trueDisjunct | complementaryDisjuncts => .value true

/-- The name of a rule. -/
def rule : Shortcut → String
  | constant _ => "Constant"
  | falseAntecedent => "Vacuously True"
  | trueConsequent => "Tautological Consequent"
  | trueAntecedent _ => "Reduction"
  | selfImplication => "Self-Implication"
  | falseConjunct | trueDisjunct => "Domination"
  | complementaryConjuncts => "Contradiction"
  | complementaryDisjuncts => "Excluded Middle"

/-- The reason that a rule gives. -/
def explanation : Shortcut → String
  | constant true => "Expression is a constant True"
  | constant false => "Expression is a constant False"
  | falseAntecedent => "An implication with a False antecedent is always True (0 → X ≡ 1)."
  | trueConsequent => "An implication with a True consequent is always True (X → 1 ≡ 1)."
  | trueAntecedent _ => "1 → X reduces to X."
  | selfImplication => "X → X is always True."
  | falseConjunct => "AND with False is always False."
  | complementaryConjuncts => "X ∧ ¬X is always False."
  | trueDisjunct => "OR with True is always True."
  | complementaryDisjuncts => "X ∨ ¬X is always True."

end Shortcut

namespace Formula

/-- Whether one of two formulas is the negation of the other. -/
def complementary (f g : Formula) : Bool := decide (g = not f) || decide (f = not g)

end Formula

namespace Expr

/-- The first rule that decides an expression. -/
def shortcut? : Expr → Option Shortcut
  | const _ value => some (.constant value)
  | binary _ .implies l r =>
    if l.shape = .const false then some .falseAntecedent
    else if r.shape = .const true then some .trueConsequent
    -- A true antecedent decides nothing, but leaves the consequent.
    else if l.shape = .const true then some (.trueAntecedent r)
    else if l.shape = r.shape then some .selfImplication
    else none
  | binary _ .and l r =>
    if l.shape = .const false ∨ r.shape = .const false then some .falseConjunct
    else if l.shape.complementary r.shape then some .complementaryConjuncts
    else none
  | binary _ .or l r =>
    if l.shape = .const true ∨ r.shape = .const true then some .trueDisjunct
    else if l.shape.complementary r.shape then some .complementaryDisjuncts
    else none
  | _ => none

end Expr

end Sentential
