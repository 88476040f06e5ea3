import Mathlib.Logic.Function.Iterate
import Mathlib.Logic.Relation
import Sentential.Proofs.Label.Meaning

/-!
# Labels are normal forms

A mode rewrites any text, also one that is no formula. Two rules are behind it: two negations in a
row are dropped, and so are the brackets around a lone literal. Either rule can make room for the
other, so both are applied in turn. Each step drops two characters; hence the passes come to an end,
and a pass that changes nothing leaves nothing to rewrite.

## Main definitions

* `Label.IsLiteral` — what loses its brackets
* `NegationMode.Rewrites` — one step under a mode
* `Label.pass` — both rules, once over the text
* `Label.StopsAfter` — what repeated passes come to

## Main results

* `NegationMode.reaches_apply` — a label is reached by steps
* `Label.not_infix_cancel`, `Label.not_infix_of_unwrap_eq_self` — where the two rules end
* `Label.exists_stopsAfter_simplify` — the passes end, each having dropped two characters or more
* `NegationMode.apply_reaches_normal_form` — a label is a normal form of its text
-/

namespace Sentential

open Relation (ReflTransGen)
open Text (isAsciiDigit)

namespace Label

variable {cs cs' literal atom rest : List Char} {c : Char}

/-! ### Literals -/

/-- A letter with digits, or a constant. -/
inductive IsAtom : List Char → Prop where
  | name {letter : Char} {digits : List Char} (isLetter : 'A' ≤ letter ∧ letter ≤ 'Z')
      (areDigits : ∀ d ∈ digits, isAsciiDigit d = true) : IsAtom (letter :: digits)
  | zero : IsAtom ['0']
  | one : IsAtom ['1']

/-- An atom behind at most one negation. -/
inductive IsLiteral : List Char → Prop where
  | atom {cs : List Char} (atom : IsAtom cs) : IsLiteral cs
  | negation {cs : List Char} (atom : IsAtom cs) : IsLiteral ('¬' :: cs)

theorem isAtom_of_atom? (found : atom? cs = some (atom, rest)) : IsAtom atom := by
  cases cs with
  | nil => cases found
  | cons c cs =>
    rw [atom?] at found
    split at found
    · rename_i isLetter
      cases found
      exact .name isLetter (List.all_eq_true.mp List.all_takeWhile)
    · split at found
      · rename_i constant
        cases found
        rcases constant with rfl | rfl
        · exact .zero
        · exact .one
      · cases found

theorem isLiteral_of_literal? (found : literal? cs = some (literal, rest)) :
    IsLiteral literal := by
  unfold literal? at found
  split at found
  rename_i sign body cut
  split at found
  · rename_i atom after isAtom
    cases found
    split at cut
    · cases cut
      exact .negation (isAtom_of_atom? isAtom)
    · cases cut
      exact .atom (isAtom_of_atom? isAtom)
  · cases found

theorem atom?_of_isAtom (isAtom : IsAtom atom) (ends : isAsciiDigit c = false) (rest : List Char) :
    atom? (atom ++ c :: rest) = some (atom, c :: rest) := by
  cases isAtom with
  | @name letter digits isLetter areDigits =>
    have spelled : Token.spellsName (String.ofList (letter :: digits)) = true :=
      Token.spellsName_iff.mpr ⟨letter, digits, String.toList_ofList,
        by simpa [Token.isLetter] using isLetter, areDigits⟩
    simpa using atom?_name spelled ends rest
  | zero | one => rfl

theorem ne_negation_of_isAtom (isAtom : IsAtom atom) : ∀ c ∈ atom.head?, c ≠ '¬' := by
  cases isAtom with
  | name isLetter _ =>
    rintro _ ⟨⟩ rfl
    exact absurd isLetter (by decide)
  | zero | one =>
    rintro _ ⟨⟩
    decide

/-- A literal in front of a closing bracket is found. -/
theorem literal?_of_isLiteral (isLiteral : IsLiteral literal) (rest : List Char) :
    literal? (literal ++ ')' :: rest) = some (literal, rest) := by
  have closes : isAsciiDigit ')' = false := by decide
  cases isLiteral with
  | atom isAtom =>
    have front := head?_append_cons (ne_negation_of_isAtom isAtom) (show ')' ≠ '¬' by decide) rest
    rw [literal?_of_ne front, atom?_of_isAtom isAtom closes]
    rfl
  | negation isAtom =>
    rw [List.cons_append]
    simp [literal?, atom?_of_isAtom isAtom closes]

end Label

/-! ### Steps -/

open Label (IsLiteral cancel unwrap simplify)

/-- One step of rewriting under a mode. -/
inductive NegationMode.Rewrites (mode : NegationMode) : List Char → List Char → Prop where
  /-- Two negations in a row are dropped. -/
  | cancel (active : mode ≠ .preserve) (front back : List Char) :
      Rewrites mode (front ++ '¬' :: '¬' :: back) (front ++ back)
  /-- The brackets around a literal are dropped. -/
  | unwrap (active : mode = .simplify) (front back : List Char) {literal : List Char}
      (isLiteral : IsLiteral literal) :
      Rewrites mode (front ++ '(' :: (literal ++ ')' :: back)) (front ++ (literal ++ back))

namespace NegationMode

variable {mode : NegationMode} {cs cs' : List Char}

theorem Rewrites.append_left (step : mode.Rewrites cs cs') (front : List Char) :
    mode.Rewrites (front ++ cs) (front ++ cs') := by
  cases step with
  | cancel active before back =>
    rw [← List.append_assoc, ← List.append_assoc]
    exact .cancel active (front ++ before) back
  | unwrap active before back isLiteral =>
    rw [← List.append_assoc, ← List.append_assoc]
    exact .unwrap active (front ++ before) back isLiteral

theorem reaches_append_left (reaches : ReflTransGen mode.Rewrites cs cs') (front : List Char) :
    ReflTransGen mode.Rewrites (front ++ cs) (front ++ cs') :=
  reaches.lift (front ++ ·) fun _ _ step => step.append_left front

/-- A step drops two characters. -/
theorem Rewrites.length_add_two (step : mode.Rewrites cs cs') : cs'.length + 2 = cs.length := by
  cases step <;> simp only [List.length_append, List.length_cons] <;> omega

theorem length_le_of_reaches (reaches : ReflTransGen mode.Rewrites cs cs') :
    cs'.length ≤ cs.length := by
  induction reaches with
  | refl => exact Nat.le_refl _
  | tail _ step ih =>
    have := step.length_add_two
    omega

/-- A step keeps the other characters in their order. -/
theorem Rewrites.sublist (step : mode.Rewrites cs cs') : cs'.Sublist cs := by
  cases step with
  | cancel _ front back => exact ((List.Sublist.refl back).cons _).cons _ |>.append_left front
  | unwrap _ front back _ =>
    exact (((List.Sublist.refl back).cons _).append_left _).cons _ |>.append_left front

theorem sublist_of_reaches (reaches : ReflTransGen mode.Rewrites cs cs') : cs'.Sublist cs := by
  induction reaches with
  | refl => exact .refl cs
  | tail _ step ih => exact step.sublist.trans ih

theorem eq_or_length_add_two_le_of_reaches (reaches : ReflTransGen mode.Rewrites cs cs') :
    cs' = cs ∨ cs'.length + 2 ≤ cs.length := by
  rcases reaches.cases_head with rfl | ⟨cs₁, step, rest⟩
  · exact Or.inl rfl
  · have first := step.length_add_two
    have others := length_le_of_reaches rest
    exact Or.inr (by omega)

/-! ### Passes are steps -/

theorem reaches_cancel (active : mode ≠ .preserve) (cs : List Char) :
    ReflTransGen mode.Rewrites cs (cancel cs) := by
  fun_induction cancel cs with
  | case1 => exact .refl
  | case2 rest ih => exact .head (.cancel active [] rest) ih
  | case3 c rest single ih => exact reaches_append_left ih [c]

theorem reaches_unwrap (cs : List Char) : ReflTransGen simplify.Rewrites cs (unwrap cs) := by
  fun_induction unwrap cs with
  | case1 => exact .refl
  | case2 rest literal after found ih =>
    -- What follows the closing bracket is rewritten behind the literal, which stays.
    rw [Label.literal?_eq_some found]
    exact .head (.unwrap rfl [] after (Label.isLiteral_of_literal? found))
      (reaches_append_left ih literal)
  | case3 rest none ih => exact reaches_append_left ih ['(']
  | case4 c rest other ih => exact reaches_append_left ih [c]

theorem reaches_simplify (cs : List Char) :
    ReflTransGen simplify.Rewrites cs (Label.simplify cs) := by
  fun_induction Label.simplify cs with
  | case1 cs shorter ih =>
    exact ((reaches_unwrap cs).trans (reaches_cancel (by decide) (unwrap cs))).trans ih
  | case2 cs finished => exact .refl

theorem toList_normalize (s : String) : (normalize.apply s).toList = cancel s.toList := by
  rw [apply, String.toList_ofList]

theorem toList_simplify (s : String) :
    (simplify.apply s).toList = Label.simplify (cancel s.toList) := by
  rw [apply, String.toList_ofList]

/-- A label is reached from its text by steps. -/
theorem reaches_apply (mode : NegationMode) (s : String) :
    ReflTransGen mode.Rewrites s.toList (mode.apply s).toList := by
  cases mode with
  | preserve => exact .refl
  | normalize =>
    rw [toList_normalize]
    exact reaches_cancel (by decide) _
  | simplify =>
    rw [toList_simplify]
    exact (reaches_cancel (by decide) _).trans (reaches_simplify _)

theorem length_apply_le (mode : NegationMode) (s : String) :
    (mode.apply s).length ≤ s.length := by
  rw [← String.length_toList, ← String.length_toList]
  exact length_le_of_reaches (reaches_apply mode s)

theorem apply_sublist (mode : NegationMode) (s : String) :
    (mode.apply s).toList.Sublist s.toList :=
  sublist_of_reaches (reaches_apply mode s)

end NegationMode

/-! ### Where the rules end -/

namespace Label

open NegationMode (reaches_cancel reaches_unwrap)

variable {cs front back literal : List Char} {c : Char}

theorem head?_cancel (front : ∀ c ∈ cs.head?, c ≠ '¬') : ∀ c ∈ (cancel cs).head?, c ≠ '¬' := by
  cases cs with
  | nil => exact front
  | cons c cs =>
    rw [cancel_cons_of_ne (front c rfl)]
    exact front

/-- Cancelling leaves no two negations in a row. -/
theorem not_infix_cancel (cs : List Char) : ¬ ['¬', '¬'] <:+: cancel cs := by
  fun_induction cancel cs with
  | case1 => decide
  | case2 rest ih => exact ih
  | case3 c rest single ih =>
    rw [List.infix_cons_iff, not_or]
    refine ⟨fun doubled => ?_, ih⟩
    obtain ⟨rfl, second⟩ := List.cons_prefix_cons.mp doubled
    -- This negation was kept, so none stands behind it; cancelling cannot bring one there.
    have other : ∀ d ∈ rest.head?, d ≠ '¬' := by
      cases rest with
      | nil => simp
      | cons d rest =>
        rintro _ ⟨⟩ rfl
        exact single rest rfl rfl
    obtain ⟨more, cut⟩ := second
    exact head?_cancel other '¬' (by rw [← cut]; rfl) rfl

theorem cancel_eq_self (single : ¬ ['¬', '¬'] <:+: cs) : cancel cs = cs := by
  fun_induction cancel cs with
  | case1 => rfl
  | case2 rest ih => exact absurd ⟨[], rest, rfl⟩ single
  | case3 c rest _ ih =>
    rw [ih fun doubled => single (doubled.trans (List.suffix_cons c rest).isInfix)]

theorem cancel_cancel (cs : List Char) : cancel (cancel cs) = cancel cs :=
  cancel_eq_self (not_infix_cancel cs)

theorem length_cancel_le (cs : List Char) : (cancel cs).length ≤ cs.length := by
  have active : NegationMode.normalize ≠ .preserve := by decide
  exact NegationMode.length_le_of_reaches (reaches_cancel active cs)

theorem length_unwrap_le (cs : List Char) : (unwrap cs).length ≤ cs.length :=
  NegationMode.length_le_of_reaches (reaches_unwrap cs)

/-- Wherever a literal stands in brackets, a pass drops some brackets. -/
theorem length_unwrap_lt (isLiteral : IsLiteral literal) (front back : List Char) :
    (unwrap (front ++ '(' :: (literal ++ ')' :: back))).length <
      (front ++ '(' :: (literal ++ ')' :: back)).length := by
  induction front with
  | nil =>
    have behind := length_unwrap_le back
    rw [List.nil_append, unwrap_of_literal?_eq_some (literal?_of_isLiteral isLiteral back)]
    simp only [List.length_append, List.length_cons]
    omega
  | cons c front ih =>
    rw [List.cons_append, List.length_cons]
    by_cases opens : c = '('
    · subst opens
      cases found : literal? (front ++ '(' :: (literal ++ ')' :: back)) with
      | none =>
        rw [unwrap_of_literal?_eq_none found, List.length_cons]
        exact Nat.succ_lt_succ ih
      | some cut =>
        -- Brackets that are met earlier are dropped; whether the later ones are does not matter.
        have shorter := length_lt_of_literal? found
        have behind := length_unwrap_le cut.2
        rw [unwrap_of_literal?_eq_some found, List.length_append]
        omega
    · rw [unwrap_cons_of_ne opens, List.length_cons]
      exact Nat.succ_lt_succ ih

/-- A text that a pass leaves as it is has no literal in brackets. -/
theorem not_infix_of_unwrap_eq_self (same : unwrap cs = cs) (isLiteral : IsLiteral literal) :
    ¬ '(' :: (literal ++ [')']) <:+: cs := by
  rintro ⟨front, back, rfl⟩
  have cut : front ++ '(' :: (literal ++ [')']) ++ back =
      front ++ '(' :: (literal ++ ')' :: back) := by simp
  have shorter := length_unwrap_lt isLiteral front back
  rw [← cut, same] at shorter
  exact Nat.lt_irrefl _ shorter

/-! ### Passes -/

/-- Both rules, once over the text. -/
def pass (cs : List Char) : List Char := cancel (unwrap cs)

theorem reaches_pass (cs : List Char) : ReflTransGen NegationMode.simplify.Rewrites cs (pass cs) :=
  (reaches_unwrap cs).trans (reaches_cancel (by decide) (unwrap cs))

/-- A pass that changes anything drops at least two characters. -/
theorem length_pass_add_two_le (changed : pass cs ≠ cs) : (pass cs).length + 2 ≤ cs.length :=
  (NegationMode.eq_or_length_add_two_le_of_reaches (reaches_pass cs)).resolve_left changed

/-- The passes stop as soon as one changes nothing. -/
theorem simplify_eq (cs : List Char) :
    simplify cs = if pass cs = cs then cs else simplify (pass cs) := by
  rw [simplify]
  by_cases same : pass cs = cs
  · have equal : (cancel (unwrap cs)).length = cs.length := congrArg List.length same
    rw [if_pos same, if_neg (by omega)]
  · have shorter : (cancel (unwrap cs)).length + 2 ≤ cs.length := length_pass_add_two_le same
    rw [if_neg same, if_pos (by omega), pass]

theorem simplify_of_pass_eq_self (same : pass cs = cs) : simplify cs = cs := by
  rw [simplify_eq, if_pos same]

/-- The result is what `n` passes make of a text; each of them changes it, and one more does not. -/
structure StopsAfter (n : Nat) (cs result : List Char) : Prop where
  eq_iterate : result = pass^[n] cs
  fixed : pass result = result
  changes : ∀ k < n, pass (pass^[k] cs) ≠ pass^[k] cs
  /-- Every pass has dropped at least two characters. -/
  length_le : 2 * n + result.length ≤ cs.length

theorem stopsAfter_zero (same : pass cs = cs) : StopsAfter 0 cs cs where
  eq_iterate := rfl
  fixed := same
  changes := by simp
  length_le := by omega

theorem StopsAfter.succ {n : Nat} {result : List Char} (changed : pass cs ≠ cs)
    (stops : StopsAfter n (pass cs) result) : StopsAfter (n + 1) cs result where
  eq_iterate := stops.eq_iterate
  fixed := stops.fixed
  changes := by
    intro k before
    cases k with
    | zero => exact changed
    | succ k => exact stops.changes k (Nat.lt_of_succ_lt_succ before)
  length_le := by
    have dropped := length_pass_add_two_le changed
    have others := stops.length_le
    omega

/-- Simplifying a text makes passes until one changes nothing. -/
theorem exists_stopsAfter_simplify (cs : List Char) : ∃ n, StopsAfter n cs (simplify cs) := by
  fun_induction simplify cs with
  | case1 cs shorter ih =>
    obtain ⟨n, stops⟩ := ih
    refine ⟨n + 1, stops.succ fun same => ?_⟩
    rw [← pass, same] at shorter
    exact Nat.lt_irrefl _ shorter
  | case2 cs finished =>
    refine ⟨0, stopsAfter_zero ?_⟩
    by_contra changed
    have dropped : (cancel (unwrap cs)).length + 2 ≤ cs.length := length_pass_add_two_le changed
    omega

/-- A pass that changes nothing leaves nothing to either rule. -/
theorem eq_self_of_pass_eq_self (same : pass cs = cs) : unwrap cs = cs ∧ cancel cs = cs := by
  -- Neither rule makes a text longer, so both keep its length, and hence the text.
  have shorter := length_cancel_le (unwrap cs)
  rw [← pass, same] at shorter
  have unwrapped : unwrap cs = cs := by
    refine (NegationMode.eq_or_length_add_two_le_of_reaches (reaches_unwrap cs)).resolve_right ?_
    omega
  refine ⟨unwrapped, ?_⟩
  calc cancel cs = cancel (unwrap cs) := by rw [unwrapped]
    _ = cs := same

end Label

namespace NegationMode

open Label (StopsAfter)

/-- A label is its own label. -/
theorem apply_apply (mode : NegationMode) (s : String) :
    mode.apply (mode.apply s) = mode.apply s := by
  cases mode with
  | preserve => rfl
  | normalize => simp only [apply, String.toList_ofList, Label.cancel_cancel]
  | simplify =>
    obtain ⟨n, stops⟩ := Label.exists_stopsAfter_simplify (cancel s.toList)
    simp only [apply, String.toList_ofList, (Label.eq_self_of_pass_eq_self stops.fixed).2,
      Label.simplify_of_pass_eq_self stops.fixed]

/-- **A label is a normal form of its text.** Under every mode a label is reached from any text by
dropping negations in pairs and brackets around literals; it is no longer than the text, and its own
label. Normalized, it has no two negations in a row; simplified, it has no literal in brackets
either, and it does not matter whether the text was normalized before. The passes that simplify a
normalized text stop when one changes nothing, and none before does. -/
theorem apply_reaches_normal_form (s : String) :
    (∀ mode : NegationMode, ReflTransGen mode.Rewrites s.toList (mode.apply s).toList ∧
      (mode.apply s).length ≤ s.length ∧ mode.apply (mode.apply s) = mode.apply s) ∧
    ¬ ['¬', '¬'] <:+: (normalize.apply s).toList ∧
    ¬ ['¬', '¬'] <:+: (simplify.apply s).toList ∧
    (∀ literal, IsLiteral literal → ¬ '(' :: (literal ++ [')']) <:+: (simplify.apply s).toList) ∧
    simplify.apply (normalize.apply s) = simplify.apply s ∧
    ∃ n, StopsAfter n (normalize.apply s).toList (simplify.apply s).toList := by
  obtain ⟨n, stops⟩ := Label.exists_stopsAfter_simplify (cancel s.toList)
  rw [← toList_simplify] at stops
  obtain ⟨unwrapped, cancelled⟩ := Label.eq_self_of_pass_eq_self stops.fixed
  refine ⟨fun mode => ⟨reaches_apply mode s, length_apply_le mode s, apply_apply mode s⟩,
    ?_, ?_, fun _ isLiteral => Label.not_infix_of_unwrap_eq_self unwrapped isLiteral, ?_, n, ?_⟩
  · rw [toList_normalize]
    exact Label.not_infix_cancel _
  · rw [← cancelled]
    exact Label.not_infix_cancel _
  · simp only [apply, String.toList_ofList, Label.cancel_cancel]
  · rw [toList_normalize]
    exact stops

end NegationMode

end Sentential
