import Sentential.Proofs.Label.Reading
import Sentential.Proofs.Table.Decision
import Sentential.Shortcut

/-!
# Shortcuts are sound

A rule looks at the root of an expression and at its immediate operands, whose formulas it compares.
That is enough to know the value under every assignment, or an operand with the same value. The
rules are tried in a fixed order, and several may apply to one expression, such as `1 → 1`; since
each of them is sound by itself, the order does not matter for what is said here.

## Main definitions

* `Shortcut.Fits` — when a rule applies to an expression
* `Shortcut.Verdict.Holds` — what a verdict promises

## Main results

* `Expr.isSome_shortcut?_iff` — a rule is found exactly if one applies
* `Shortcut.Fits.eval_eq`, `Shortcut.Fits.reduced` — what a rule that applies says of the values
* `Shortcut.verdict_holds` — a verdict keeps its promise
-/

namespace Sentential

open Token (spellsName)

namespace Formula

variable {f g : Formula}

theorem complementary_iff : f.complementary g = true ↔ g = not f ∨ f = not g := by
  rw [complementary, Bool.or_eq_true, decide_eq_true_eq, decide_eq_true_eq]

theorem eval_of_complementary (opposed : f.complementary g = true) (v : String → Bool) :
    g.eval v = !f.eval v := by
  rcases complementary_iff.mp opposed with rfl | rfl
  · rw [eval]
  · rw [eval, Bool.not_not]

end Formula

/-- When a rule applies to an expression. -/
inductive Shortcut.Fits : Shortcut → Expr → Prop where
  | constant (m : Mark) (b : Bool) : Fits (.constant b) (.const m b)
  | falseAntecedent (m : Mark) {l : Expr} (r : Expr) (left : l.shape = .const false) :
      Fits .falseAntecedent (.binary m .implies l r)
  | trueConsequent (m : Mark) (l : Expr) {r : Expr} (right : r.shape = .const true) :
      Fits .trueConsequent (.binary m .implies l r)
  | trueAntecedent (m : Mark) {l : Expr} (r : Expr) (left : l.shape = .const true) :
      Fits (.trueAntecedent r) (.binary m .implies l r)
  | selfImplication (m : Mark) {l r : Expr} (same : l.shape = r.shape) :
      Fits .selfImplication (.binary m .implies l r)
  | falseConjunct (m : Mark) {l r : Expr}
      (side : l.shape = .const false ∨ r.shape = .const false) :
      Fits .falseConjunct (.binary m .and l r)
  | complementaryConjuncts (m : Mark) {l r : Expr}
      (opposed : l.shape.complementary r.shape = true) :
      Fits .complementaryConjuncts (.binary m .and l r)
  | trueDisjunct (m : Mark) {l r : Expr} (side : l.shape = .const true ∨ r.shape = .const true) :
      Fits .trueDisjunct (.binary m .or l r)
  | complementaryDisjuncts (m : Mark) {l r : Expr}
      (opposed : l.shape.complementary r.shape = true) :
      Fits .complementaryDisjuncts (.binary m .or l r)

variable {e u : Expr} {s : Shortcut} {b : Bool}

namespace Expr

/-- The rule that is found applies. -/
theorem fits_of_shortcut? (found : e.shortcut? = some s) : s.Fits e := by
  cases e with
  | var | not => cases found
  | const m value =>
    cases found
    exact .constant m value
  | binary m op l r =>
    cases op with
    | xor | iff => cases found
    | implies =>
      rw [shortcut?] at found
      split at found
      · next left =>
        cases found
        exact .falseAntecedent m r left
      split at found
      · next right =>
        cases found
        exact .trueConsequent m l right
      split at found
      · next left =>
        cases found
        exact .trueAntecedent m r left
      split at found
      · next same =>
        cases found
        exact .selfImplication m same
      · cases found
    | and =>
      rw [shortcut?] at found
      split at found
      · next side =>
        cases found
        exact .falseConjunct m side
      split at found
      · next opposed =>
        cases found
        exact .complementaryConjuncts m opposed
      · cases found
    | or =>
      rw [shortcut?] at found
      split at found
      · next side =>
        cases found
        exact .trueDisjunct m side
      split at found
      · next opposed =>
        cases found
        exact .complementaryDisjuncts m opposed
      · cases found

/-- A rule is found exactly if one applies. -/
theorem isSome_shortcut?_iff : e.shortcut?.isSome ↔ ∃ s : Shortcut, s.Fits e := by
  constructor
  · intro active
    obtain ⟨s, found⟩ := Option.isSome_iff_exists.mp active
    exact ⟨s, fits_of_shortcut? found⟩
  · -- An earlier rule may be found in place of the one that applies.
    rintro ⟨s, fits⟩
    cases fits with
    | constant => rfl
    | falseAntecedent | trueConsequent | trueAntecedent | selfImplication =>
      simp only [shortcut?]
      split_ifs <;> simp_all
    | falseConjunct | complementaryConjuncts | trueDisjunct | complementaryDisjuncts =>
      simp only [shortcut?]
      split_ifs <;> simp_all

end Expr

namespace Shortcut

/-- Where a rule applies that decides the value, the expression has it under every valuation. -/
theorem Fits.eval_eq (fits : s.Fits e) (decides : s.verdict = .value b) (v : String → Bool) :
    e.shape.eval v = b := by
  cases fits with
  | constant m value =>
    cases decides
    rfl
  | falseAntecedent m r left =>
    cases decides
    rw [Expr.shape, left]
    rfl
  | trueConsequent m l right =>
    cases decides
    rw [Expr.shape, right]
    exact Bool.or_true _
  | trueAntecedent => cases decides
  | selfImplication m same =>
    cases decides
    rw [Expr.shape, same]
    exact Bool.not_or_self _
  | falseConjunct m side =>
    cases decides
    rcases side with left | right
    · rw [Expr.shape, left]
      rfl
    · rw [Expr.shape, right]
      exact Bool.and_false _
  | complementaryConjuncts m opposed =>
    cases decides
    rw [Expr.shape, Formula.eval, Formula.eval_of_complementary opposed]
    exact Bool.and_not_self _
  | trueDisjunct m side =>
    cases decides
    rcases side with left | right
    · rw [Expr.shape, left]
      rfl
    · rw [Expr.shape, right]
      exact Bool.or_true _
  | complementaryDisjuncts m opposed =>
    cases decides
    rw [Expr.shape, Formula.eval, Formula.eval_of_complementary opposed]
    exact Bool.or_not_self _

/-- Where a rule applies that leaves an operand, this has the variables and the values of the whole.
-/
theorem Fits.reduced (fits : s.Fits e) (leaves : s.verdict = .reduced u) :
    u.shape.vars = e.shape.vars ∧ ∀ v, u.shape.eval v = e.shape.eval v := by
  cases fits with
  | trueAntecedent m r left =>
    cases leaves
    rw [Expr.shape, left]
    exact ⟨rfl, fun v => rfl⟩
  | constant | falseAntecedent | trueConsequent | selfImplication | falseConjunct
  | complementaryConjuncts | trueDisjunct | complementaryDisjuncts => cases leaves

/-- What a verdict on an expression promises. A value is that of the expression under every
assignment of its variables, and the classification of its table; a reduct is read back as an
expression that evaluates like the whole, also where variables are unbound. -/
def Verdict.Holds (e : Expr) : Verdict → Prop
  | .value b =>
    (∀ σ, (∀ x ∈ e.shape.vars, (σ x).isSome = true) → e.shape.eval? σ = .ok b) ∧
      ∀ vars order subformulas mode, (∀ x ∈ e.shape.vars, x ∈ vars) →
        ∃ t, TruthTable.build e vars order subformulas mode = .ok t ∧
          t.classification = if b then .tautology else .contradiction
  | .reduced u =>
    ∃ w, Expr.ofText u.text = .ok w ∧ ∀ σ, w.shape.eval? σ = e.shape.eval? σ

theorem holds_value (value : ∀ v, e.shape.eval v = b) : (Verdict.value b).Holds e := by
  constructor
  · intro σ bound
    rw [← value fun x => (σ x).getD false]
    refine Formula.eval?_eq_ok e.shape fun x occurs => ?_
    obtain ⟨c, found⟩ := Option.isSome_iff_exists.mp (bound x occurs)
    rw [found, Option.getD_some]
  · intro vars order subformulas mode covered
    refine ⟨_, TruthTable.build_eq_ok covered, ?_⟩
    have decides : (TruthTable.tableOf e vars order subformulas mode).Decides e.shape vars order :=
      TruthTable.decides_tableOf covered
    cases b with
    | false => exact decides.contradiction_iff.mpr fun v => Formula.hasValue_iff.mpr (value v)
    | true => exact decides.tautology_iff.mpr fun v => Formula.hasValue_iff.mpr (value v)

theorem holds_reduced (named : ∀ x ∈ u.shape.vars, spellsName x = true)
    (vars : u.shape.vars = e.shape.vars) (value : ∀ v, u.shape.eval v = e.shape.eval v) :
    (Verdict.reduced u).Holds e := by
  obtain ⟨w, read, shape, -⟩ := Expr.exists_ofText_text named
  refine ⟨w, read, Formula.eval?_congr ?_ fun v => ?_⟩
  · rw [shape, vars]
  · rw [shape, value]

/-- **Shortcuts are sound.** Let the variables of an expression be letters with digits. If a rule is
found for the expression, then what the rule decides holds. -/
theorem verdict_holds (e : Expr) (named : ∀ x ∈ e.shape.vars, spellsName x = true) (s : Shortcut)
    (found : e.shortcut? = some s) : s.verdict.Holds e := by
  have fits := Expr.fits_of_shortcut? found
  cases decided : s.verdict with
  | value b => exact holds_value (fits.eval_eq decided)
  | reduced u =>
    obtain ⟨vars, value⟩ := fits.reduced decided
    exact holds_reduced (by rwa [vars]) vars value

/-- The rules for `¬(A ∧ B1) ∨ A ∧ B1` and for `((1)) → ¬(A → 0)`. -/
theorem verdict_holds_excludedMiddle_reduction :
    let both (m : Mark) : Expr := .binary m .and (.var {} "A") (.var {} "B1")
    let e : Expr := .binary {} .or (.not {} (both ⟨-1, 1⟩)) (both {})
    let r : Expr := .not {} (.binary ⟨-1, 1⟩ .implies (.var {} "A") (.const {} false))
    let e' : Expr := .binary {} .implies (.const ⟨-1, 2⟩ true) r
    (∀ x ∈ e.shape.vars, spellsName x = true) ∧ e.shortcut? = some .complementaryDisjuncts ∧
      (Verdict.value true).Holds e ∧
      (∀ x ∈ e'.shape.vars, spellsName x = true) ∧ e'.shortcut? = some (.trueAntecedent r) ∧
      r.text = "¬(A → 0)" ∧ (Verdict.reduced r).Holds e' := by
  intro both e r e'
  have named : ∀ x ∈ e.shape.vars, spellsName x = true := by decide
  have named' : ∀ x ∈ e'.shape.vars, spellsName x = true := by decide
  exact ⟨named, rfl, verdict_holds e named _ rfl, named', rfl, by decide,
    verdict_holds e' named' _ rfl⟩

end Shortcut

end Sentential
