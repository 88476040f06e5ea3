import Sentential.Expr.Forms
import Sentential.Proofs.Analysis.Detection
import Sentential.Proofs.Label.Meaning

/-!
# Labels are read back

A label is the text of an expression with the variables and the values of the one that it labels. So
it is read back as such an expression, and since the variables even come in the same order, the two
also miss the same variable first when an assignment leaves some unbound.

The forms of an implication are such labels: each is the text of an implication between the sides,
or between their negations, so that no bracket is missing or too many.

## Main definitions

* `Expr.Says` — what a text is read as, up to equivalence
* `Forms.Says`, `Forms.Shows` — the four forms say, or are, what their names promise

## Main results

* `Expr.label_keeps_meaning` — no mode changes what a label says
* `Expr.forms?_implies` — the forms are the labels of four implications
* `Expr.forms_say_what_they_name` — and say what their names promise
-/

namespace Sentential

open Token (names sortedNames spellsName tokenize variablesIn)

namespace Expr

variable {e u : Expr} {f : Formula} {s : String}

/-! ### Labels -/

/-- The variables of what is read are the names in the text. -/
theorem vars_of_ofText (read : ofText s = .ok u) : u.shape.vars = names (tokenize s) := by
  unfold ofText parseText at read
  split at read
  · rename_i p parsed
    cases read
    exact Analysis.vars_of_parse (Analysis.parseLinted_eq_ok_iff.mp parsed).2
  · cases read

/-- **No mode changes what a label says.** Let the variables of an expression be letters with
digits. Under every mode its text is read without a diagnostic, it names the variables of the
expression, and what is read has the same value under every assignment that binds them; under any
other assignment it misses the same variable first. -/
theorem label_keeps_meaning (e : Expr) (named : ∀ x ∈ e.shape.vars, spellsName x = true)
    (mode : NegationMode) : ∃ u, ofText (mode.apply e.text) = .ok u ∧
      u.shape.vars = e.shape.vars ∧
      variablesIn (mode.apply e.text) = sortedNames e.shape.vars ∧
      ∀ σ, u.shape.eval? σ = e.shape.eval? σ := by
  obtain ⟨u, read, vars, value⟩ := exists_ofText_label named mode
  refine ⟨u, read, vars, ?_, Formula.eval?_congr vars value⟩
  rw [variablesIn, ← vars_of_ofText read, vars]

/-- The expression `¬(¬A1) ∧ ¬¬(B → 0)`. -/
def negatedTwice : Expr :=
  .binary {} .and (.not {} (.not ⟨-1, 1⟩ (.var {} "A1")))
    (.not {} (.not {} (.binary ⟨-1, 1⟩ .implies (.var {} "B") (.const {} false))))

theorem label_keeps_meaning_negatedTwice :
    (∀ x ∈ negatedTwice.shape.vars, spellsName x = true) ∧
      NegationMode.simplify.apply negatedTwice.text = "A1 ∧ (B → 0)" ∧
      ∃ u, ofText "A1 ∧ (B → 0)" = .ok u ∧ u.shape.vars = ["A1", "B"] ∧
        variablesIn "A1 ∧ (B → 0)" = sortedNames ["A1", "B"] ∧
        ∀ σ, u.shape.eval? σ = negatedTwice.shape.eval? σ := by
  have named : ∀ x ∈ negatedTwice.shape.vars, spellsName x = true := by decide
  have label : NegationMode.simplify.apply negatedTwice.text = "A1 ∧ (B → 0)" := by
    decide +kernel
  obtain ⟨u, read, vars, mentioned, value⟩ := label_keeps_meaning negatedTwice named .simplify
  rw [label] at read mentioned
  exact ⟨named, label, u, read, vars, mentioned, value⟩

/-! ### Forms of an implication -/

/-- The text is read as an expression with the variables of the formula, and with its value under
every assignment that binds these. -/
def Says (s : String) (f : Formula) : Prop :=
  ∃ u, ofText s = .ok u ∧ (∀ x, x ∈ u.shape.vars ↔ x ∈ f.vars) ∧
    ∀ σ, (∀ x ∈ f.vars, (σ x).isSome = true) → u.shape.eval? σ = f.eval? σ

theorem says_label (named : ∀ x ∈ e.shape.vars, spellsName x = true)
    (vars : ∀ x, x ∈ e.shape.vars ↔ x ∈ f.vars) (value : ∀ v, e.shape.eval v = f.eval v)
    (mode : NegationMode) : Says (mode.apply e.text) f := by
  obtain ⟨u, read, vars', value'⟩ := exists_ofText_label named mode
  refine ⟨u, read, fun x => vars' ▸ vars x, fun σ bound => ?_⟩
  -- The order of the variables may differ, but no unbound one is left to be reported.
  have total : ∀ x ∈ f.vars, σ x = some ((σ x).getD false) := by
    intro x mem
    obtain ⟨b, found⟩ := Option.isSome_iff_exists.mp (bound x mem)
    rw [found, Option.getD_some]
  rw [Formula.eval?_eq_ok f total, Formula.eval?_eq_ok u.shape, value', value]
  exact fun x mem => total x ((vars x).mp (vars' ▸ mem))

theorem textAsOperand_not (e : Expr) : (not {} e).textAsOperand = e.negatedText := by
  simp [textAsOperand, isBare, text, enclose_default, negatedText, Formula.bracketedIf]

/-- An implication between two operands is the text of an expression. -/
theorem impliesText_eq (p q : Expr) :
    impliesText p.textAsOperand q.textAsOperand = (binary {} .implies p q).text := by
  rw [text, enclose_default]
  rfl

/-- The sides of an implication, each negated, are the sides of another one. -/
theorem impliesText_negated (p q : Expr) : impliesText p.negatedText q.negatedText =
    (binary {} .implies (not {} p) (not {} q)).text := by
  rw [← textAsOperand_not, ← textAsOperand_not, impliesText_eq]

/-- The forms are the labels of four implications. -/
theorem forms?_implies (m : Mark) (p q : Expr) (mode : NegationMode) :
    (binary m .implies p q).forms? mode = some
      { direct := mode.apply (binary {} .implies p q).text
        converse := mode.apply (binary {} .implies q p).text
        inverse := mode.apply (binary {} .implies (not {} p) (not {} q)).text
        contrapositive := mode.apply (binary {} .implies (not {} q) (not {} p)).text } := by
  rw [forms?, impliesText_eq, impliesText_eq, impliesText_negated, impliesText_negated]

theorem forms?_eq_none (other : ∀ m p q, e ≠ binary m .implies p q) (mode : NegationMode) :
    e.forms? mode = none := by
  unfold forms?
  split
  · exact absurd rfl (other _ _ _)
  · rfl

end Expr

namespace Forms

/-- The four texts say what their names promise of an implication. -/
structure Says (forms : Forms) (p q : Formula) : Prop where
  direct : Expr.Says forms.direct (.binary .implies p q)
  converse : Expr.Says forms.converse (.binary .implies q p)
  /-- The inverse says what the converse says. -/
  inverse : Expr.Says forms.inverse (.binary .implies q p)
  /-- The contrapositive says what the implication says. -/
  contrapositive : Expr.Says forms.contrapositive (.binary .implies p q)

/-- The four texts are read as what their names promise. -/
structure Shows (forms : Forms) (p q : Formula) : Prop where
  direct : ∃ u, Expr.ofText forms.direct = .ok u ∧ u.shape = .binary .implies p q
  converse : ∃ u, Expr.ofText forms.converse = .ok u ∧ u.shape = .binary .implies q p
  inverse : ∃ u, Expr.ofText forms.inverse = .ok u ∧ u.shape = .binary .implies (.not p) (.not q)
  contrapositive : ∃ u, Expr.ofText forms.contrapositive = .ok u ∧
    u.shape = .binary .implies (.not q) (.not p)

end Forms

namespace Expr

variable {e p q : Expr}

section Sides

variable (named : ∀ x ∈ p.shape.vars ++ q.shape.vars, spellsName x = true)
include named

theorem says_implies (mode : NegationMode) :
    Says (mode.apply (binary {} .implies p q).text) (.binary .implies p.shape q.shape) :=
  says_label (e := binary {} .implies p q) named (fun _ => Iff.rfl) (fun _ => rfl) mode

theorem spellsName_exchanged : ∀ x ∈ q.shape.vars ++ p.shape.vars, spellsName x = true :=
  fun x mem => named x (List.mem_append.mpr (List.mem_append.mp mem).symm)

/-- An implication may be told by its negated sides in the other order. -/
theorem says_contrapositive (mode : NegationMode) :
    Says (mode.apply (binary {} .implies (not {} q) (not {} p)).text)
      (.binary .implies p.shape q.shape) := by
  refine says_label (e := binary {} .implies (not {} q) (not {} p)) (spellsName_exchanged named)
    (fun x => ?_) (fun v => ?_) mode
  · simp only [shape, Formula.vars, List.mem_append, or_comm]
  · simp only [shape, Formula.eval, Connective.apply, Bool.not_not, Bool.or_comm]

end Sides

/-- Without a mode, a label is read as the very expression. -/
theorem exists_ofText_preserve (named : ∀ x ∈ e.shape.vars, spellsName x = true) :
    ∃ u, ofText (NegationMode.preserve.apply e.text) = .ok u ∧ u.shape = e.shape := by
  obtain ⟨u, read, shape, -⟩ := exists_ofText_text named
  exact ⟨u, read, shape⟩

/-- **The forms of an implication say what they name.** Let the variables be letters with digits.
Under every mode the four forms of an implication are read without a diagnostic; the implication
itself and the contrapositive have its values, the converse and the inverse those of the implication
between its sides exchanged. Without a mode they are read as what they name. No other expression has
forms. -/
theorem forms_say_what_they_name :
    (∀ (m : Mark) (p q : Expr), (∀ x ∈ (binary m .implies p q).shape.vars, spellsName x = true) →
      (∀ mode, ∃ forms, (binary m .implies p q).forms? mode = some forms ∧
        forms.Says p.shape q.shape) ∧
      ∃ forms, (binary m .implies p q).forms? .preserve = some forms ∧
        forms.Shows p.shape q.shape) ∧
    ∀ e : Expr, (∀ m p q, e ≠ binary m .implies p q) → ∀ mode, e.forms? mode = none := by
  refine ⟨fun m p q named => ?_, fun e other mode => forms?_eq_none other mode⟩
  have exchanged : ∀ x ∈ q.shape.vars ++ p.shape.vars, spellsName x = true :=
    spellsName_exchanged named
  constructor
  · intro mode
    refine ⟨_, forms?_implies m p q mode, ?_⟩
    exact
      { direct := says_implies named mode
        converse := says_implies exchanged mode
        inverse := says_contrapositive exchanged mode
        contrapositive := says_contrapositive named mode }
  · refine ⟨_, forms?_implies m p q .preserve, ?_⟩
    exact
      { direct := exists_ofText_preserve named
        converse := exists_ofText_preserve exchanged
        inverse := exists_ofText_preserve named
        contrapositive := exists_ofText_preserve exchanged }

/-- The forms of `(P → ¬Q) → (¬P)`, whose negation has none. -/
theorem forms_say_what_they_name_nested :
    let p : Expr := .binary {} .implies (.var {} "P") (.not {} (.var {} "Q"))
    let q : Expr := .not ⟨-1, 1⟩ (.var {} "P")
    let e : Expr := .binary {} .implies p q
    (∀ x ∈ e.shape.vars, spellsName x = true) ∧
      (∃ forms, e.forms? .simplify = some forms ∧ forms.contrapositive = "P → ¬(P → ¬Q)" ∧
        forms.Says p.shape q.shape) ∧
      (∃ forms, e.forms? .preserve = some forms ∧ forms.contrapositive = "¬(¬P) → ¬(P → ¬Q)" ∧
        forms.Shows p.shape q.shape) ∧
      (not {} e).forms? .normalize = none := by
  intro p q e
  have named : ∀ x ∈ e.shape.vars, spellsName x = true := by decide
  obtain ⟨labels, shown, texts', literal⟩ := forms_say_what_they_name.1 {} p q named
  obtain ⟨simplified, texts, equivalent⟩ := labels .simplify
  refine ⟨named, ⟨simplified, texts, ?_, equivalent⟩, ⟨shown, texts', ?_, literal⟩,
    forms_say_what_they_name.2 _ (fun _ _ _ => ?_) .normalize⟩
  · cases texts
    decide +kernel
  · cases texts'
    decide +kernel
  · rintro ⟨⟩

end Expr

end Sentential
