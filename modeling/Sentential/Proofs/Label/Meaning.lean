import Sentential.Proofs.Parse.RoundTrip

/-!
# Labels keep their meaning

A mode rewrites the characters of a text and knows nothing of formulas. On the text of an expression
it does what could be done on the expression: two negations cancel if no brackets stand between
them, and a literal loses one pair of its brackets in each pass. So a label is again the text of an
expression, and that one has the same value under every valuation.

The proofs work on the expression with all brackets of its text on its marks. There no operand is
bare, so that a negation in front of an operand is a negation of all of it.

## Main definitions

* `Expr.Guarded` — no operand is a binary expression without brackets
* `Expr.letters` — the characters of such an expression
* `Expr.cancelled`, `Expr.unwrapped` — what the rewriting of a text does to the expression

## Main results

* `Label.cancel_letters`, `Label.unwrap_letters` — rewriting on texts is rewriting on expressions
* `Expr.exists_apply_text_eq` — a label is the text of an equivalent expression
* `Expr.exists_ofText_label` — so it is read back as one
-/

namespace Sentential

open Text (isAsciiDigit)
open Token (spellsName)

/-- Some characters inside pairs of round brackets. -/
def inBrackets : Nat → List Char → List Char
  | 0, cs => cs
  | n + 1, cs => '(' :: (inBrackets n cs ++ [')'])

theorem inBrackets_eq (n : Nat) (cs : List Char) :
    inBrackets n cs = List.replicate n '(' ++ cs ++ List.replicate n ')' := by
  induction n with
  | zero => simp [inBrackets]
  | succ n ih =>
    rw [inBrackets, ih, List.replicate_succ, List.replicate_succ', List.cons_append,
      List.cons_append, List.append_assoc]

theorem inBrackets_add (n k : Nat) (cs : List Char) :
    inBrackets (n + k) cs = inBrackets n (inBrackets k cs) := by
  induction n with
  | zero => rw [Nat.zero_add, inBrackets]
  | succ n ih => rw [Nat.succ_add, inBrackets, inBrackets, ih]

theorem inBrackets_succ_append (n : Nat) (cs ys : List Char) :
    inBrackets (n + 1) cs ++ ys = '(' :: (inBrackets n cs ++ ')' :: ys) := by
  simp [inBrackets]

namespace Mark

variable {m : Mark}

theorem toNat_brackets_of_not_isGrouped (bare : ¬ m.isGrouped = true) : m.brackets.toNat = 0 := by
  have none : ¬ 0 < m.brackets := by simpa [isGrouped] using bare
  omega

theorem exists_inBrackets_eq (grouped : m.isGrouped = true) (cs : List Char) :
    ∃ rest, inBrackets m.brackets.toNat cs = '(' :: rest := by
  have some : 0 < m.brackets := of_decide_eq_true grouped
  obtain ⟨n, count⟩ : ∃ n, m.brackets.toNat = n + 1 := ⟨m.brackets.toNat - 1, by omega⟩
  exact ⟨_, by rw [count, inBrackets]⟩

end Mark

/-- One pair of brackets less. -/
def Mark.unwrap (m : Mark) : Mark := ⟨m.id, m.brackets - 1⟩

namespace Expr

variable {e : Expr}

/-! ### Characters -/

/-- No operand is a binary expression without brackets. -/
def Guarded : Expr → Prop
  | var .. | const .. => True
  | not _ e => e.isBare = false ∧ e.Guarded
  | binary _ _ l r => (l.isBare = false ∧ l.Guarded) ∧ r.isBare = false ∧ r.Guarded

/-- The characters of an expression, without any brackets but those of its marks. -/
def letters : Expr → List Char
  | var m name => inBrackets m.brackets.toNat name.toList
  | const m value => inBrackets m.brackets.toNat [if value then '1' else '0']
  | not m e => inBrackets m.brackets.toNat ('¬' :: e.letters)
  | binary m op l r =>
    inBrackets m.brackets.toNat (l.letters ++ ' ' :: op.sign :: ' ' :: r.letters)

theorem toList_enclose (m : Mark) (s : String) :
    (m.enclose s).toList = inBrackets m.brackets.toNat s.toList := by
  rw [Mark.toList_enclose, inBrackets_eq]

theorem toList_text (guarded : e.Guarded) : e.text.toList = e.letters := by
  induction e with
  | var m name => exact toList_enclose m name
  | const m value =>
    rw [text, toList_enclose, letters]
    cases value <;> rfl
  | not m e ih =>
    rw [text, toList_enclose, letters, guarded.1, String.toList_append, Formula.bracketedIf,
      if_neg Bool.false_ne_true, ih guarded.2]
    rfl
  | binary m op l r ihl ihr =>
    obtain ⟨⟨notBareLeft, left⟩, notBareRight, right⟩ := guarded
    rw [text, toList_enclose, letters, notBareLeft, notBareRight]
    simp [Formula.bracketedIf, String.toList_append, Connective.symbol, ihl left, ihr right]

theorem guarded_guarded (guarded : e.Guarded) : e.guarded.Guarded := by
  unfold Expr.guarded
  split
  · cases e <;> exact guarded
  · exact guarded

theorem guarded_printed (e : Expr) : e.printed.Guarded := by
  induction e with
  | var | const => trivial
  | not m e ih => exact ⟨isBare_guarded _, guarded_guarded ih⟩
  | binary m op l r ihl ihr =>
    exact ⟨⟨isBare_guarded _, guarded_guarded ihl⟩, isBare_guarded _, guarded_guarded ihr⟩

/-! ### Rewriting expressions -/

/-- The expression inside the brackets of a mark as well. -/
def within (m : Mark) (e : Expr) : Expr :=
  e.withMark ⟨e.mark.id, m.brackets.toNat + e.mark.brackets.toNat⟩

theorem letters_within (m : Mark) (e : Expr) :
    (e.within m).letters = inBrackets m.brackets.toNat e.letters := by
  have count : (m.brackets.toNat + e.mark.brackets.toNat : Int).toNat =
      m.brackets.toNat + e.mark.brackets.toNat := by omega
  cases e <;> exact (congrArg (inBrackets · _) count).trans (inBrackets_add _ _ _)

theorem isBare_within (notBare : e.isBare = false) (m : Mark) : (e.within m).isBare = false := by
  cases e with
  | var | const | not => rfl
  | binary m' op l r =>
    simp only [isBare, Mark.isGrouped, Bool.not_eq_false', decide_eq_true_eq] at notBare
    simp only [within, withMark, mark, isBare, Mark.isGrouped, Bool.not_eq_false',
      decide_eq_true_eq]
    omega

theorem guarded_within (guarded : e.Guarded) (m : Mark) : (e.within m).Guarded := by
  cases e <;> exact guarded

/-- Two negations cancel if no brackets stand between them. -/
def cancelled : Expr → Expr
  | var m name => var m name
  | const m value => const m value
  | not m (not m' e) =>
    if m'.isGrouped then not m (not m' e).cancelled else e.cancelled.within m
  | not m e => not m e.cancelled
  | binary m op l r => binary m op l.cancelled r.cancelled

theorem vars_cancelled (e : Expr) : e.cancelled.shape.vars = e.shape.vars := by
  fun_induction cancelled e with
  | case1 | case2 => rfl
  | case3 m m' e grouped ih => exact ih
  | case4 m m' e open' ih => rw [within, shape_withMark, ih]; rfl
  | case5 m e other ih => exact ih
  | case6 m op l r ihl ihr => rw [shape, Formula.vars, ihl, ihr]; rfl

theorem eval_cancelled (v : String → Bool) (e : Expr) :
    e.cancelled.shape.eval v = e.shape.eval v := by
  fun_induction cancelled e with
  | case1 | case2 => rfl
  | case3 m m' e grouped ih => rw [shape, Formula.eval, ih]; rfl
  | case4 m m' e open' ih => rw [within, shape_withMark, ih]; simp [shape, Formula.eval]
  | case5 m e other ih => rw [shape, Formula.eval, ih]; rfl
  | case6 m op l r ihl ihr => rw [shape, Formula.eval, ihl, ihr]; rfl

theorem isBare_cancelled (guarded : e.Guarded) (notBare : e.isBare = false) :
    e.cancelled.isBare = false := by
  fun_induction cancelled e with
  | case1 | case2 | case3 | case5 => rfl
  | case4 m m' e open' ih => exact isBare_within (ih guarded.2.2 guarded.2.1) m
  | case6 m op l r ihl ihr => exact notBare

theorem guarded_cancelled (guarded : e.Guarded) : e.cancelled.Guarded := by
  fun_induction cancelled e with
  | case1 | case2 => trivial
  | case3 m m' e grouped ih => exact ⟨isBare_cancelled guarded.2 guarded.1, ih guarded.2⟩
  | case4 m m' e open' ih => exact guarded_within (ih guarded.2.2) m
  | case5 m e other ih => exact ⟨isBare_cancelled guarded.2 guarded.1, ih guarded.2⟩
  | case6 m op l r ihl ihr =>
    obtain ⟨⟨notBareLeft, left⟩, notBareRight, right⟩ := guarded
    exact ⟨⟨isBare_cancelled left notBareLeft, ihl left⟩,
      isBare_cancelled right notBareRight, ihr right⟩

/-- A variable or a constant without brackets. -/
def isAtom : Expr → Bool
  | var m _ | const m _ => !m.isGrouped
  | _ => false

/-- A literal loses one pair of its brackets. -/
def unwrapped : Expr → Expr
  | var m name => var m.unwrap name
  | const m value => const m.unwrap value
  | not m e => not (if e.isAtom then m.unwrap else m) e.unwrapped
  | binary m op l r => binary m op l.unwrapped r.unwrapped

theorem shape_unwrapped (e : Expr) : e.unwrapped.shape = e.shape := by
  induction e with
  | var | const => rfl
  | not m e ih => rw [unwrapped, shape, shape, ih]
  | binary m op l r ihl ihr => rw [unwrapped, shape, shape, ihl, ihr]

theorem isBare_unwrapped (e : Expr) : e.unwrapped.isBare = e.isBare := by
  cases e <;> rfl

theorem guarded_unwrapped (guarded : e.Guarded) : e.unwrapped.Guarded := by
  induction e with
  | var | const => trivial
  | not m e ih => exact ⟨(isBare_unwrapped e).trans guarded.1, ih guarded.2⟩
  | binary m op l r ihl ihr =>
    obtain ⟨⟨notBareLeft, left⟩, notBareRight, right⟩ := guarded
    exact ⟨⟨(isBare_unwrapped l).trans notBareLeft, ihl left⟩,
      (isBare_unwrapped r).trans notBareRight, ihr right⟩

end Expr

namespace Label

open Sentential.Expr (letters)

variable {c : Char} {cs cs' xs ys rest literal : List Char} {name : String} {e l : Expr}

/-! ### Negations -/

theorem cancel_cons_of_ne (other : c ≠ '¬') (cs : List Char) :
    cancel (c :: cs) = c :: cancel cs := by
  rw [cancel]
  exact fun _ negation => absurd negation other

/-- A negation in front of anything else stays. -/
theorem cancel_negation (front : ∀ c ∈ cs.head?, c ≠ '¬') :
    cancel ('¬' :: cs) = '¬' :: cancel cs := by
  cases cs with
  | nil => rfl
  | cons c cs =>
    rw [cancel]
    rintro rest - ⟨⟩
    exact front '¬' rfl rfl

theorem cancel_append (front : ∀ c ∈ ys.head?, c ≠ '¬') :
    cancel (xs ++ ys) = cancel xs ++ cancel ys := by
  fun_induction cancel xs with
  | case1 => rfl
  | case2 rest ih => rw [List.cons_append, List.cons_append, cancel, ih]
  | case3 c rest single ih =>
    by_cases negation : c = '¬'
    · subst negation
      rw [List.cons_append, cancel_negation, ih, List.cons_append]
      cases rest with
      | nil => exact front
      | cons d rest =>
        rintro _ ⟨⟩ rfl
        exact single rest rfl rfl
    · rw [List.cons_append, cancel_cons_of_ne negation, ih, List.cons_append]

theorem cancel_of_notMem (plain : '¬' ∉ cs) : cancel cs = cs := by
  induction cs with
  | nil => rfl
  | cons c cs ih =>
    rw [List.mem_cons, not_or] at plain
    rw [cancel_cons_of_ne (Ne.symm plain.1), ih plain.2]

theorem cancel_inBrackets (n : Nat) (cs : List Char) :
    cancel (inBrackets n cs) = inBrackets n (cancel cs) := by
  induction n with
  | zero => rfl
  | succ n ih =>
    have closed : ∀ c ∈ [')'].head?, c ≠ '¬' := by
      rintro _ ⟨⟩
      decide
    rw [inBrackets, cancel_cons_of_ne (by decide), cancel_append closed, ih, inBrackets]
    rfl

theorem negation_notMem_name (spelled : spellsName name = true) : '¬' ∉ name.toList := by
  intro mem
  have continues := Token.continuesName_of_spellsName spelled '¬' mem
  cases continues

/-- Brackets stand in front of what they are around. -/
theorem head?_inBrackets (front : ∀ c ∈ cs.head?, c ≠ '¬') (n : Nat) :
    ∀ c ∈ (inBrackets n cs).head?, c ≠ '¬' := by
  cases n with
  | zero => exact front
  | succ n =>
    rintro _ ⟨⟩
    decide

theorem head?_inBrackets_of_isGrouped {m : Mark} (grouped : m.isGrouped = true) (cs : List Char) :
    ∀ c ∈ (inBrackets m.brackets.toNat cs).head?, c ≠ '¬' := by
  obtain ⟨rest, cut⟩ := m.exists_inBrackets_eq grouped cs
  rw [cut]
  rintro _ ⟨⟩
  decide

/-- An operand begins with a negation only if it is one without brackets. -/
theorem head?_letters (named : ∀ x ∈ e.shape.vars, spellsName x = true) (notBare : e.isBare = false)
    (notNegation : ∀ m e', e = .not m e' → m.isGrouped = true) :
    ∀ c ∈ e.letters.head?, c ≠ '¬' := by
  cases e with
  | var m name =>
    refine head?_inBrackets (fun c mem negation => ?_) _
    subst negation
    exact negation_notMem_name (named name (List.mem_singleton_self name))
      (List.mem_of_mem_head? mem)
  | const m value => exact head?_inBrackets (by cases value <;> rintro _ ⟨⟩ <;> decide) _
  | not m e => exact head?_inBrackets_of_isGrouped (notNegation m e rfl) _
  | binary m op l r =>
    exact head?_inBrackets_of_isGrouped (by simpa [Expr.isBare] using notBare) _

/-- Cancelling negations in the text cancels them in the expression. -/
theorem cancel_letters (guarded : e.Guarded) (named : ∀ x ∈ e.shape.vars, spellsName x = true) :
    cancel e.letters = e.cancelled.letters := by
  fun_induction Expr.cancelled e with
  | case1 m name =>
    rw [letters, cancel_inBrackets, cancel_of_notMem]
    exact negation_notMem_name (named name (List.mem_singleton_self name))
  | case2 m value =>
    rw [letters, cancel_inBrackets]
    cases value <;> rfl
  | case3 m m' e grouped ih =>
    have front : ∀ c ∈ (Expr.not m' e).letters.head?, c ≠ '¬' :=
      head?_letters named rfl fun _ _ same => by cases same; exact grouped
    rw [letters, cancel_inBrackets, cancel_negation front, ih guarded.2 named, letters]
  | case4 m m' e open' ih =>
    rw [Expr.letters_within, letters, letters, m'.toNat_brackets_of_not_isGrouped open',
      inBrackets, cancel_inBrackets, cancel, ih guarded.2.2 named]
  | case5 m e other ih =>
    have front : ∀ c ∈ e.letters.head?, c ≠ '¬' :=
      head?_letters named guarded.1 fun m' e' same => (other m' e' same).elim
    rw [letters, cancel_inBrackets, cancel_negation front, ih guarded.2 named, letters]
  | case6 m op l r ihl ihr =>
    simp only [Expr.shape, Formula.vars, List.mem_append] at named
    have operator : op.sign ≠ '¬' := by cases op <;> decide
    rw [letters, cancel_inBrackets, cancel_append (by rintro _ ⟨⟩; decide),
      cancel_cons_of_ne (by decide), cancel_cons_of_ne operator, cancel_cons_of_ne (by decide),
      ihl guarded.1.2 fun x mem => named x (Or.inl mem),
      ihr guarded.2.2 fun x mem => named x (Or.inr mem), letters]

/-! ### Brackets around literals -/

theorem unwrap_cons_of_ne (other : c ≠ '(') (cs : List Char) :
    unwrap (c :: cs) = c :: unwrap cs := by
  rw [unwrap, if_neg other]

theorem unwrap_of_literal?_eq_none (none : literal? cs = none) :
    unwrap ('(' :: cs) = '(' :: unwrap cs := by
  rw [unwrap, if_pos rfl]
  split
  · rename_i found
    rw [none] at found
    cases found
  · rfl

theorem unwrap_of_literal?_eq_some (found : literal? cs = some (literal, rest)) :
    unwrap ('(' :: cs) = literal ++ unwrap rest := by
  rw [unwrap, if_pos rfl]
  split
  · rename_i found'
    rw [found] at found'
    cases found'
    rfl
  · rename_i none
    rw [found] at none
    cases none

theorem unwrap_append_of_notMem (plain : '(' ∉ xs) (ys : List Char) :
    unwrap (xs ++ ys) = xs ++ unwrap ys := by
  induction xs with
  | nil => rfl
  | cons c xs ih =>
    rw [List.mem_cons, not_or] at plain
    rw [List.cons_append, unwrap_cons_of_ne (Ne.symm plain.1), ih plain.2, List.cons_append]

/-- What is in brackets is no literal. -/
theorem literal?_open (cs : List Char) : literal? ('(' :: cs) = none := rfl

/-- Brackets around anything but a literal stay. -/
theorem unwrap_inBrackets (closed : ∀ zs, literal? (cs ++ ')' :: zs) = none)
    (inner : ∀ zs, unwrap (cs ++ zs) = cs' ++ unwrap zs) (n : Nat) (ys : List Char) :
    unwrap (inBrackets n cs ++ ys) = inBrackets n cs' ++ unwrap ys := by
  induction n generalizing ys with
  | zero => exact inner ys
  | succ n ih =>
    have around : literal? (inBrackets n cs ++ ')' :: ys) = none := by
      cases n with
      | zero => exact closed ys
      | succ n => exact literal?_open _
    rw [inBrackets_succ_append, unwrap_of_literal?_eq_none around, ih,
      unwrap_cons_of_ne (by decide), inBrackets_succ_append]

/-- Of the brackets around a literal, one pair is dropped. -/
theorem unwrap_inBrackets_literal (closed : ∀ zs, literal? (cs ++ ')' :: zs) = some (cs, zs))
    (plain : '(' ∉ cs) (n : Nat) (ys : List Char) :
    unwrap (inBrackets n cs ++ ys) = inBrackets (n - 1) cs ++ unwrap ys := by
  induction n generalizing ys with
  | zero => exact unwrap_append_of_notMem plain ys
  | succ n ih =>
    rw [inBrackets_succ_append]
    cases n with
    | zero => exact unwrap_of_literal?_eq_some (closed ys)
    | succ n =>
      have around : literal? (inBrackets (n + 1) cs ++ ')' :: ys) = none := literal?_open _
      rw [unwrap_of_literal?_eq_none around, ih, unwrap_cons_of_ne (by decide)]
      exact (inBrackets_succ_append n cs (unwrap ys)).symm

theorem atom?_name (spelled : spellsName name = true) (ends : isAsciiDigit c = false)
    (ys : List Char) : atom? (name.toList ++ c :: ys) = some (name.toList, c :: ys) := by
  obtain ⟨letter, digits, cut, isLetter, areDigits⟩ := Token.spellsName_iff.mp spelled
  have range : 'A' ≤ letter ∧ letter ≤ 'Z' := by simpa [Token.isLetter] using isLetter
  have taken : (digits ++ c :: ys).takeWhile isAsciiDigit = digits := by
    rw [List.takeWhile_append_of_pos areDigits, List.takeWhile_cons_of_neg (by simp [ends]),
      List.append_nil]
  have dropped : (digits ++ c :: ys).dropWhile isAsciiDigit = c :: ys := by
    rw [List.dropWhile_append_of_pos areDigits, List.dropWhile_cons_of_neg (by simp [ends])]
  rw [cut, List.cons_append, atom?, if_pos range, taken, dropped]

theorem atom?_open (cs : List Char) : atom? ('(' :: cs) = none := rfl

/-- Of the operands, only atoms without brackets begin with an atom that the rest does not
continue. -/
theorem atom?_letters (named : ∀ x ∈ e.shape.vars, spellsName x = true) (notBare : e.isBare = false)
    (ends : isAsciiDigit c = false) (ys : List Char) :
    atom? (e.letters ++ c :: ys) = if e.isAtom then some (e.letters, c :: ys) else none := by
  have opened : ∀ {m : Mark} {cs : List Char}, m.isGrouped = true →
      atom? (inBrackets m.brackets.toNat cs ++ c :: ys) = none := by
    intro m cs grouped
    obtain ⟨rest, cut⟩ := m.exists_inBrackets_eq grouped cs
    rw [cut]
    exact atom?_open _
  cases e with
  | var m name =>
    cases grouped : m.isGrouped with
    | true => simp [Expr.isAtom, grouped, letters, opened grouped]
    | false =>
      have none := m.toNat_brackets_of_not_isGrouped (Bool.eq_false_iff.mp grouped)
      simp only [Expr.isAtom, grouped, letters, none, inBrackets, Bool.not_false, if_true]
      exact atom?_name (named name (List.mem_singleton_self name)) ends ys
  | const m value =>
    cases grouped : m.isGrouped with
    | true => simp [Expr.isAtom, grouped, letters, opened grouped]
    | false =>
      have none := m.toNat_brackets_of_not_isGrouped (Bool.eq_false_iff.mp grouped)
      simp only [Expr.isAtom, grouped, letters, none, inBrackets, Bool.not_false, if_true]
      cases value <;> rfl
  | not m e =>
    cases grouped : m.isGrouped with
    | true => simp [Expr.isAtom, letters, opened grouped]
    | false =>
      have none := m.toNat_brackets_of_not_isGrouped (Bool.eq_false_iff.mp grouped)
      simp only [Expr.isAtom, letters, none, inBrackets]
      rfl
  | binary m op l r =>
    have grouped : m.isGrouped = true := by simpa [Expr.isBare] using notBare
    simp [Expr.isAtom, letters, opened grouped]

theorem head?_append_cons (front : ∀ c ∈ xs.head?, c ≠ '¬') {d : Char} (other : d ≠ '¬')
    (ys : List Char) : ∀ c ∈ (xs ++ d :: ys).head?, c ≠ '¬' := by
  cases xs with
  | nil =>
    rintro c ⟨⟩
    exact other
  | cons => exact front

theorem literal?_of_ne (front : ∀ c ∈ cs.head?, c ≠ '¬') :
    literal? cs = match atom? cs with
      | some (atom, ')' :: rest) => some (atom, rest)
      | _ => none := by
  unfold literal?
  split
  rename_i sign body cut
  split at cut
  · exact absurd rfl (front '¬' rfl)
  · cases cut
    rfl

/-- A name in front of a closing bracket is a literal. -/
theorem literal?_name (spelled : spellsName name = true) (zs : List Char) :
    literal? (name.toList ++ ')' :: zs) = some (name.toList, zs) := by
  have first : ∀ c ∈ name.toList.head?, c ≠ '¬' := by
    rintro c mem rfl
    exact negation_notMem_name spelled (List.mem_of_mem_head? mem)
  rw [literal?_of_ne (head?_append_cons first (show ')' ≠ '¬' by decide) zs),
    atom?_name spelled (by decide)]
  rfl

/-- A negated operand in front of a closing bracket is a literal if the operand is an atom. -/
theorem literal?_negation (named : ∀ x ∈ e.shape.vars, spellsName x = true)
    (notBare : e.isBare = false) (zs : List Char) :
    literal? ('¬' :: e.letters ++ ')' :: zs) =
      if e.isAtom then some ('¬' :: e.letters, zs) else none := by
  have front := atom?_letters named notBare (show isAsciiDigit ')' = false by decide) zs
  rw [List.cons_append]
  cases atom : e.isAtom <;> simp [literal?, front, atom]

/-- An operand in front of a connective is no literal in brackets. -/
theorem literal?_operand (named : ∀ x ∈ l.shape.vars, spellsName x = true)
    (guarded : l.Guarded) (notBare : l.isBare = false) (zs : List Char) :
    literal? (l.letters ++ ' ' :: zs) = none := by
  have space : isAsciiDigit ' ' = false := by decide
  by_cases negation : ∃ m e, l = .not m e ∧ ¬ m.isGrouped = true
  · obtain ⟨m, e, rfl, bare⟩ := negation
    have inner : ∀ x ∈ e.shape.vars, spellsName x = true := named
    have front := atom?_letters inner guarded.1 space zs
    rw [letters, m.toNat_brackets_of_not_isGrouped bare, inBrackets, List.cons_append]
    cases atom : e.isAtom <;> simp [literal?, front, atom]
  · have first := head?_letters named notBare fun m e same =>
      Classical.byContradiction fun bare => negation ⟨m, e, same, bare⟩
    rw [literal?_of_ne (head?_append_cons first (show ' ' ≠ '¬' by decide) zs),
      atom?_letters named notBare space zs]
    cases l.isAtom <;> rfl

theorem bracket_notMem_name (spelled : spellsName name = true) : '(' ∉ name.toList := by
  intro mem
  have continues := Token.continuesName_of_spellsName spelled '(' mem
  cases continues

theorem bracket_notMem_atom (named : ∀ x ∈ e.shape.vars, spellsName x = true)
    (atom : e.isAtom = true) : '(' ∉ e.letters := by
  cases e with
  | var m name =>
    have bare : ¬ m.isGrouped = true := by simpa [Expr.isAtom] using atom
    rw [letters, m.toNat_brackets_of_not_isGrouped bare]
    exact bracket_notMem_name (named name (List.mem_singleton_self name))
  | const m value =>
    have bare : ¬ m.isGrouped = true := by simpa [Expr.isAtom] using atom
    rw [letters, m.toNat_brackets_of_not_isGrouped bare]
    cases value <;> decide
  | not | binary => cases atom

theorem toNat_brackets_unwrap (m : Mark) : m.unwrap.brackets.toNat = m.brackets.toNat - 1 := by
  simp only [Mark.unwrap]
  omega

/-- Dropping brackets in the text drops them in the expression, whatever follows. -/
theorem unwrap_letters (guarded : e.Guarded) (named : ∀ x ∈ e.shape.vars, spellsName x = true)
    (ys : List Char) : unwrap (e.letters ++ ys) = e.unwrapped.letters ++ unwrap ys := by
  induction e generalizing ys with
  | var m name =>
    have spelled : spellsName name = true := named name (List.mem_singleton_self name)
    rw [letters, unwrap_inBrackets_literal (literal?_name spelled) (bracket_notMem_name spelled),
      ← toNat_brackets_unwrap, Expr.unwrapped, letters]
  | const m value =>
    have closed : ∀ zs, literal? ([if value then '1' else '0'] ++ ')' :: zs) =
        some ([if value then '1' else '0'], zs) := by
      cases value <;> exact fun _ => rfl
    rw [letters, unwrap_inBrackets_literal closed (by cases value <;> decide),
      ← toNat_brackets_unwrap, Expr.unwrapped, letters]
  | not m e ih =>
    have inner : ∀ x ∈ e.shape.vars, spellsName x = true := named
    have closed := literal?_negation inner guarded.1
    cases atom : e.isAtom with
    | true =>
      simp only [atom, if_true] at closed
      have plain := bracket_notMem_atom inner atom
      -- Without brackets there are none to drop inside.
      have same : e.unwrapped.letters = e.letters := by
        have rewritten := ih guarded.2 inner []
        rwa [unwrap_append_of_notMem plain, List.append_cancel_right_eq, eq_comm] at rewritten
      rw [letters, unwrap_inBrackets_literal closed (by simp [plain]), ← toNat_brackets_unwrap,
        Expr.unwrapped, atom, letters, same]
      rfl
    | false =>
      simp only [atom, Bool.false_eq_true, if_false] at closed
      have behind : ∀ zs, unwrap ('¬' :: e.letters ++ zs) =
          '¬' :: e.unwrapped.letters ++ unwrap zs := by
        intro zs
        rw [List.cons_append, unwrap_cons_of_ne (by decide), ih guarded.2 inner, List.cons_append]
      rw [letters, unwrap_inBrackets closed behind, Expr.unwrapped, atom, letters]
      rfl
  | binary m op l r ihl ihr =>
    simp only [Expr.shape, Formula.vars, List.mem_append] at named
    have left : ∀ x ∈ l.shape.vars, spellsName x = true := fun x mem => named x (Or.inl mem)
    have right : ∀ x ∈ r.shape.vars, spellsName x = true := fun x mem => named x (Or.inr mem)
    obtain ⟨⟨notBare, guardedLeft⟩, -, guardedRight⟩ := guarded
    have operator : op.sign ≠ '(' := by cases op <;> decide
    have closed : ∀ zs, literal? (l.letters ++ ' ' :: op.sign :: ' ' :: r.letters ++ ')' :: zs) =
        none := by
      intro zs
      rw [List.append_assoc]
      exact literal?_operand left guardedLeft notBare _
    have inner : ∀ zs, unwrap (l.letters ++ ' ' :: op.sign :: ' ' :: r.letters ++ zs) =
        l.unwrapped.letters ++ ' ' :: op.sign :: ' ' :: r.unwrapped.letters ++ unwrap zs := by
      intro zs
      rw [List.append_assoc, ihl guardedLeft left, List.cons_append, List.cons_append,
        List.cons_append, unwrap_cons_of_ne (by decide), unwrap_cons_of_ne operator,
        unwrap_cons_of_ne (by decide), ihr guardedRight right]
      simp
    rw [letters, unwrap_inBrackets closed inner, Expr.unwrapped, letters]

/-- Simplifying a text gives the text of an equivalent expression. -/
theorem exists_simplify_eq (guarded : e.Guarded)
    (named : ∀ x ∈ e.shape.vars, spellsName x = true) :
    ∃ e' : Expr, simplify e.letters = e'.letters ∧ e'.Guarded ∧ e'.shape.vars = e.shape.vars ∧
      ∀ v, e'.shape.eval v = e.shape.eval v := by
  generalize cut : e.letters = cs
  fun_induction simplify cs generalizing e with
  | case1 cs shorter ih =>
    subst cut
    have once : cancel (unwrap e.letters) = e.unwrapped.cancelled.letters := by
      have rewritten := unwrap_letters guarded named []
      have nothing : unwrap [] = [] := by rw [unwrap]
      rw [nothing, List.append_nil, List.append_nil] at rewritten
      rw [rewritten, cancel_letters (Expr.guarded_unwrapped guarded)]
      rwa [Expr.shape_unwrapped]
    obtain ⟨e', same, guarded', vars, value⟩ :=
      ih (Expr.guarded_cancelled (Expr.guarded_unwrapped guarded))
        (by rwa [Expr.vars_cancelled, Expr.shape_unwrapped]) once.symm
    refine ⟨e', same, guarded', ?_, fun v => ?_⟩
    · rw [vars, Expr.vars_cancelled, Expr.shape_unwrapped]
    · rw [value, Expr.eval_cancelled, Expr.shape_unwrapped]
  | case2 cs finished => exact ⟨e, cut.symm, guarded, rfl, fun _ => rfl⟩

end Label

namespace Expr

variable {e : Expr}

/-- A label is the text of an expression with the same value under every valuation. -/
theorem exists_apply_text_eq (named : ∀ x ∈ e.shape.vars, spellsName x = true)
    (mode : NegationMode) :
    ∃ e' : Expr, mode.apply e.text = e'.text ∧ e'.shape.vars = e.shape.vars ∧
      ∀ v, e'.shape.eval v = e.shape.eval v := by
  have guarded := guarded_printed e
  have letters_eq : e.text.toList = e.printed.letters := by
    rw [← toList_text guarded, text_printed]
  have named' : ∀ x ∈ e.printed.shape.vars, spellsName x = true := by rwa [shape_printed]
  cases mode with
  | preserve => exact ⟨e, rfl, rfl, fun _ => rfl⟩
  | normalize =>
    refine ⟨e.printed.cancelled, ?_, ?_, fun v => ?_⟩
    · rw [NegationMode.apply, letters_eq, Label.cancel_letters guarded named',
        ← toList_text (guarded_cancelled guarded), String.ofList_toList]
    · rw [vars_cancelled, shape_printed]
    · rw [eval_cancelled, shape_printed]
  | simplify =>
    obtain ⟨e', same, guarded', vars, value⟩ :=
      Label.exists_simplify_eq (guarded_cancelled guarded) (by rwa [vars_cancelled])
    refine ⟨e', ?_, ?_, fun v => ?_⟩
    · rw [NegationMode.apply, letters_eq, Label.cancel_letters guarded named', same,
        ← toList_text guarded', String.ofList_toList]
    · rw [vars, vars_cancelled, shape_printed]
    · rw [value, eval_cancelled, shape_printed]

/-- A label is read back as an expression with the same variables, in the same order, and with the
same value under every valuation. -/
theorem exists_ofText_label (named : ∀ x ∈ e.shape.vars, spellsName x = true)
    (mode : NegationMode) : ∃ u, ofText (mode.apply e.text) = .ok u ∧
      u.shape.vars = e.shape.vars ∧ ∀ v, u.shape.eval v = e.shape.eval v := by
  obtain ⟨e', same, vars, value⟩ := exists_apply_text_eq named mode
  obtain ⟨u, read, shape, -⟩ := exists_ofText_text (vars ▸ named)
  exact ⟨u, same ▸ read, shape ▸ vars, fun v => shape ▸ value v⟩

end Expr

end Sentential
