import Sentential.Diagnostic
import Sentential.Formula.Basic
import Sentential.OrderedMap

/-!
# Evaluation under partial assignments

An assignment may leave variables unbound; a formula that needs one of them has no value. Both
operands of a connective are always evaluated, the left one first, so the first unbound variable
from the left is the one that is reported.

## Main definitions

* `Formula.eval?` — the value, or the first unbound variable
* `Formula.HasValue` — the value under a valuation that binds all variables
* `Formula.Memo`, `Formula.evalInto` — the values of all distinct subformulas, each computed once

## Main results

* `eval?_eq_ok` — if all variables are bound, the value is that of `Formula.eval`
* `eval?_eq` — otherwise the first unbound variable is reported
-/

namespace Sentential.Formula

/-- The value under a partial assignment, or the first variable that is unbound. -/
def eval? (σ : String → Option Bool) : Formula → Except Diagnostic Bool
  | var name =>
    match σ name with
    | some b => .ok b
    | none => .error (.undeclared [name])
  | const value => .ok value
  | not f =>
    match f.eval? σ with
    | .error d => .error d
    | .ok b => .ok (!b)
  | binary op l r =>
    match l.eval? σ with
    | .error d => .error d
    | .ok a =>
      match r.eval? σ with
      | .error d => .error d
      | .ok b => .ok (op.apply a b)

section Connectives

variable {σ : String → Option Bool} {f g : Formula} {name : String} {b : Bool}

theorem eval?_var_iff : (var name).eval? σ = .ok b ↔ σ name = some b := by
  rw [eval?]
  cases σ name <;> simp

theorem eval?_not_iff : (not f).eval? σ = .ok b ↔ f.eval? σ = .ok !b := by
  rw [eval?]
  cases f.eval? σ <;> simp [Bool.not_eq_eq_eq_not]

theorem eval?_and_iff :
    (binary .and f g).eval? σ = .ok true ↔ f.eval? σ = .ok true ∧ g.eval? σ = .ok true := by
  rw [eval?]
  cases f.eval? σ <;> cases g.eval? σ <;> simp [Connective.apply]

end Connectives

theorem eval?_eq_ok {σ : String → Option Bool} {v : String → Bool} (f : Formula)
    (h : ∀ x ∈ f.vars, σ x = some (v x)) : f.eval? σ = .ok (f.eval v) := by
  induction f with
  | var name => simp [eval?, eval, h name (by simp [vars])]
  | const value => rfl
  | not f ih => simp only [eval?, eval, ih h]
  | binary op l r ihl ihr =>
    simp only [vars, List.mem_append] at h
    simp only [eval?, eval, ihl fun x hx => h x (Or.inl hx), ihr fun x hx => h x (Or.inr hx)]

/-- The value is that of any completion of the assignment, unless a variable is unbound; then the
first such variable from the left is reported. -/
theorem eval?_eq (σ : String → Option Bool) (f : Formula) :
    f.eval? σ = match f.vars.find? (fun x => (σ x).isNone) with
      | some x => .error (.undeclared [x])
      | none => .ok (f.eval fun x => (σ x).getD false) := by
  induction f with
  | var name => cases bound : σ name <;> simp [eval?, eval, vars, bound]
  | const value => rfl
  | not f ih =>
    rw [eval?, ih, vars]
    cases f.vars.find? fun x => (σ x).isNone <;> rfl
  | binary op l r ihl ihr =>
    rw [eval?, ihl, ihr, vars, List.find?_append]
    cases l.vars.find? fun x => (σ x).isNone with
    | some x => rfl
    | none => cases r.vars.find? fun x => (σ x).isNone <;> rfl

/-- A formula with a value has no unbound variable. -/
theorem isSome_of_eval? {σ : String → Option Bool} {f : Formula} {b : Bool}
    (value : f.eval? σ = .ok b) : ∀ x ∈ f.vars, (σ x).isSome := by
  intro x occurs
  rw [eval?_eq] at value
  cases missing : f.vars.find? fun x => (σ x).isNone with
  | some y => simp [missing] at value
  | none => simpa [Option.isSome_iff_ne_none] using List.find?_eq_none.mp missing x occurs

/-- Formulas with the same variables and values cannot be told apart by an assignment. -/
theorem eval?_congr {f g : Formula} (vars : f.vars = g.vars) (value : ∀ v, f.eval v = g.eval v)
    (σ : String → Option Bool) : f.eval? σ = g.eval? σ := by
  rw [eval?_eq, eval?_eq, vars, value]

/-- The formula evaluates to a value when a valuation binds all variables. -/
def HasValue (f : Formula) (v : String → Bool) (b : Bool) : Prop :=
  f.eval? (fun x => some (v x)) = .ok b

theorem hasValue_iff {f : Formula} {v : String → Bool} {b : Bool} :
    f.HasValue v b ↔ f.eval v = b := by
  rw [HasValue, eval?_eq_ok f fun _ _ => rfl, Except.ok.injEq]

theorem hasValue_not_iff {f : Formula} {v : String → Bool} {b : Bool} :
    f.HasValue v (!b) ↔ ¬ f.HasValue v b := by
  rw [hasValue_iff, hasValue_iff, Bool.eq_not]

/-- Values of formulas, in the order in which they were found. -/
abbrev Memo := OrderedMap Formula Bool

/-- The recorded value of a formula. -/
def Memo.value (memo : Memo) (f : Formula) : Except Diagnostic Bool :=
  match OrderedMap.get? memo f with
  | some b => .ok b
  | none => .error (.unrecorded f.text)

/-- Adds the values of all subformulas that are not recorded yet, operands first. -/
def evalInto (σ : String → Option Bool) (f : Formula) (memo : Memo) : Except Diagnostic Memo :=
  if memo.contains f then .ok memo
  else
    match f with
    | var name =>
      match σ name with
      | some b => .ok (memo.insert (var name) b)
      | none => .error (.undeclared [name])
    | const value => .ok (memo.insert (const value) value)
    | not g => do
      let memo ← evalInto σ g memo
      return memo.insert (not g) (!(← memo.value g))
    | binary op l r => do
      let memo ← evalInto σ l memo
      let memo ← evalInto σ r memo
      return memo.insert (binary op l r) (op.apply (← memo.value l) (← memo.value r))

end Sentential.Formula
