import Mathlib.Data.String.Basic
import Sentential.Proofs.Table.Columns

/-!
# Texts stand for formulas

Formulas are compared in two ways: they are equal if they have the same structure, and ordered by
their texts; "after" and "not after" are made from both. Over names that are letters with digits the
two belong together, because a text is the text of one formula only. So the order is a strict total
order, whatever the marks of the expressions are, and a look-up by text finds what a look-up by
formula finds.

## Main results

* `Formula.text_inj` — texts are equal if and only if the formulas are
* `Formula.count_comparisons`, `Formula.follows_eq_precedes` — the order is total
* `TruthTable.bearer_text` — the key of a formula stands for that formula
* `Expr.identified_by_text` — equality, texts and order of expressions
-/

namespace Sentential

open Token (spellsName)

namespace Formula

variable {f g h : Formula}

theorem precedes_iff : f.precedes g = true ↔ f.text < g.text := decide_eq_true_iff

theorem precedes_irrefl (f : Formula) : f.precedes f = false :=
  decide_eq_false (String.lt_irrefl f.text)

theorem precedes_trans (fg : f.precedes g = true) (gh : g.precedes h = true) :
    f.precedes h = true :=
  precedes_iff.mpr (String.lt_trans (precedes_iff.mp fg) (precedes_iff.mp gh))

/-- A formula stands before another one or is equal to it if it does not stand after it. -/
theorem precedesOrEq_eq_not_follows (f g : Formula) : f.precedesOrEq g = !f.follows g := by
  simp [precedesOrEq, follows]

/-- Before, equal and after exclude each other, and one of them is the case. -/
theorem count_comparisons (f g : Formula) :
    [f.precedes g, decide (f = g), f.follows g].count true = 1 := by
  by_cases same : f = g
  · subst same
    simp [follows, precedes_irrefl]
  · cases before : f.precedes g <;> simp [follows, before, same]

section Named

variable (namedF : ∀ x ∈ f.vars, spellsName x = true) (namedG : ∀ x ∈ g.vars, spellsName x = true)
include namedF namedG

theorem text_inj : f.text = g.text ↔ f = g :=
  ⟨eq_of_text_eq namedF namedG, fun same => congrArg text same⟩

/-- One formula stands after another one if that one stands before it. -/
theorem follows_eq_precedes : f.follows g = g.precedes f := by
  have order : f.text < g.text ∨ f.text = g.text ∨ g.text < f.text := lt_trichotomy _ _
  rw [text_inj namedF namedG] at order
  rw [Bool.eq_iff_iff, follows, Bool.and_eq_true, Bool.not_eq_true', decide_eq_true_iff,
    ← Bool.not_eq_true, precedes_iff, precedes_iff]
  constructor
  · rintro ⟨notBefore, differ⟩
    exact (order.resolve_left notBefore).resolve_left differ
  · intro after
    exact ⟨String.lt_asymm after, fun same => String.lt_irrefl _ (same ▸ after)⟩

end Named

end Formula

/-- The text of a formula stands for that formula, if it is one of the subformulas, and for nothing
otherwise. -/
theorem TruthTable.bearer_text {f g : Formula} (namedF : ∀ x ∈ f.vars, spellsName x = true)
    (namedG : ∀ x ∈ g.vars, spellsName x = true) :
    bearer f g.text =
      if g ∈ f.subformulas then .ok g else .error (.unrecorded g.text) := by
  have spelled : ∀ {h : Formula}, h ∈ f.subformulas → h.text = g.text → h = g := by
    intro h mem same
    refine Formula.eq_of_text_eq (fun x occurs => ?_) namedG same
    exact namedF x (Formula.vars_subset_of_mem_subformulas mem occurs)
  split
  · rename_i mem
    obtain ⟨found, within, same⟩ := bearer_eq_ok mem
    rw [found, spelled within same]
  · rename_i absent
    have missed : (f.subformulas.reverse.find? fun h => h.text == g.text) = none := by
      rw [List.find?_eq_none]
      intro h mem same
      have within := List.mem_reverse.mp mem
      exact absent (spelled within (beq_iff_eq.mp same) ▸ within)
    rw [bearer, missed]

/-- **Equality, text and order of expressions belong together.** Let the variables of three
expressions be letters with digits; marks do not count. The texts of their formulas are equal if and
only if the formulas are. Of before, equal and after exactly one is the case, the other two
comparisons are the negations, and the order is transitive and the same from both sides. A look-up
by text among the nodes of one expression finds the other one exactly if it is one of these nodes.
-/
theorem Expr.identified_by_text (a b c : Expr)
    (namedA : ∀ name ∈ a.shape.vars, spellsName name = true)
    (namedB : ∀ name ∈ b.shape.vars, spellsName name = true) :
    (a.shape.text = b.shape.text ↔ a.shape = b.shape) ∧
    [a.shape.precedes b.shape, decide (a.shape = b.shape), a.shape.follows b.shape].count true = 1 ∧
    a.shape.precedesOrEq b.shape = !a.shape.follows b.shape ∧
    a.shape.followsOrEq b.shape = !a.shape.precedes b.shape ∧
    a.shape.follows b.shape = b.shape.precedes a.shape ∧
    (a.shape.precedes b.shape = true → b.shape.precedes c.shape = true →
      a.shape.precedes c.shape = true) ∧
    TruthTable.bearer a.shape b.shape.text =
      if b.shape ∈ a.shape.subformulas then .ok b.shape
      else .error (.unrecorded b.shape.text) :=
  ⟨Formula.text_inj namedA namedB, Formula.count_comparisons _ _,
    Formula.precedesOrEq_eq_not_follows _ _, rfl, Formula.follows_eq_precedes namedA namedB,
    Formula.precedes_trans, TruthTable.bearer_text namedA namedB⟩

/-- Three variables joined by implications, from the left. -/
def impliedFromLeft : Expr :=
  .binary {} .implies (.binary ⟨2, 1⟩ .implies (.var {} "A") (.var {} "B")) (.var {} "C1")

/-- The same variables, joined from the right. -/
def impliedFromRight : Expr :=
  .binary {} .implies (.var {} "A") (.binary ⟨3, 2⟩ .implies (.var {} "B") (.var {} "C1"))

theorem Expr.identified_by_text_impliedFromLeft :
    (∀ name ∈ impliedFromLeft.shape.vars, spellsName name = true) ∧
    (∀ name ∈ impliedFromRight.shape.vars, spellsName name = true) ∧
    impliedFromLeft.shape.text ≠ impliedFromRight.shape.text ∧
    impliedFromLeft.shape.precedes impliedFromRight.shape = true ∧
    impliedFromLeft.shape.follows impliedFromRight.shape = false ∧
    impliedFromLeft.shape.precedes (.not (.var "A")) = true ∧
    TruthTable.bearer impliedFromLeft.shape impliedFromRight.shape.text =
      .error (.unrecorded "A → (B → C1)") := by
  have namedLeft : ∀ name ∈ impliedFromLeft.shape.vars, spellsName name = true := by decide
  have namedRight : ∀ name ∈ impliedFromRight.shape.vars, spellsName name = true := by decide
  have differ : impliedFromLeft.shape ≠ impliedFromRight.shape := by decide
  have absent : impliedFromRight.shape ∉ impliedFromLeft.shape.subformulas := by decide
  have before : impliedFromLeft.shape.precedes impliedFromRight.shape = true := by decide
  have later : impliedFromRight.shape.precedes (.not (.var "A")) = true := by decide
  obtain ⟨sameText, -, -, -, converse, trans, found⟩ :=
    identified_by_text impliedFromLeft impliedFromRight (.not {} (.var {} "A")) namedLeft namedRight
  rw [if_neg absent] at found
  exact ⟨namedLeft, namedRight, fun same => differ (sameText.mp same), before,
    converse.trans (by decide), trans before later, found⟩

end Sentential
