import Sentential.Proofs.Parse.Acceptance
import Sentential.Proofs.Parse.Completeness
import Sentential.Proofs.Token.Written

/-!
# Texts are read back

The text of an expression has the brackets of its marks and one more pair around every binary
operand that has none. So it is written with the words of another expression, which has those added
pairs on its marks: that one is well bracketed, and parsing its words gives it back. The shape of
what is read is the shape of the expression, and its text is the same text again, because its marks
have exactly the brackets that the text has.

The text of a formula is the text of an expression without marks.

## Main definitions

* `Expr.printed` — the expression with the brackets that its text adds
* `Expr.ofFormula` — a formula as an expression without brackets

## Main results

* `Expr.exists_ofText_eq` — a text that writes a well-bracketed expression is read as it
* `Expr.written_text` — a text writes the expression with the added brackets
* `Expr.text_reads_back` — both texts are read as the formula, and reading changes neither
-/

namespace Sentential

open Token (Word Written spellsName)

/-- Round brackets for every pair. -/
def Families.round : Families := fun _ _ => .paren

theorem Mark.toList_enclose (m : Mark) (s : String) : (m.enclose s).toList =
    List.replicate m.brackets.toNat '(' ++ s.toList ++ List.replicate m.brackets.toNat ')' := by
  simp [Mark.enclose, String.toList_append, String.toList_ofList]

namespace Token

variable {cs : List Char} {ws ws' : List Word} {s s' : String}

theorem Written.bracketed (n : Nat) (written : Written cs ws) :
    Written (List.replicate n '(' ++ cs ++ List.replicate n ')')
      (bracketed (fun _ => .paren) n ws) := by
  induction n with
  | zero => simpa [Sentential.bracketed] using written
  | succ n ih =>
    have closer : Written [')'] [⟨.closing .paren, ""⟩] := written_sign rfl
    have opener : Kind.sign? (.opening .paren) = some '(' := rfl
    have opened := (ih.append closer (apart_cons rfl)).sign opener
    rw [List.replicate_succ, List.replicate_succ', List.cons_append, List.cons_append,
      ← List.append_assoc]
    exact opened

theorem Written.enclose (m : Mark) (written : Written s.toList ws) :
    Written (m.enclose s).toList (Sentential.bracketed (fun _ => .paren) m.brackets.toNat ws) := by
  rw [Mark.toList_enclose]
  exact written.bracketed _

theorem Written.negation (written : Written s.toList ws) :
    Written (negationSymbol ++ s).toList (⟨.negation, ""⟩ :: ws) := by
  rw [String.toList_append]
  exact .sign rfl written

/-- A connective with a space on either side joins any two texts. -/
theorem Written.binary (op : Connective) (left : Written s.toList ws)
    (right : Written s'.toList ws') :
    Written (s ++ " " ++ op.symbol ++ " " ++ s').toList (ws ++ ⟨.binary op, ""⟩ :: ws') := by
  have sign : Kind.sign? (.binary op) = some op.sign := rfl
  have joined := left.append (.space (.sign sign (.space right))) (apart_cons rfl)
  have cut : (s ++ " " ++ op.symbol ++ " " ++ s').toList =
      s.toList ++ ' ' :: op.sign :: ' ' :: s'.toList := by
    simp [String.toList_append, Connective.symbol]
  rw [cut]
  exact joined

end Token

namespace Expr

variable {e : Expr} {f : Formula} {s : String} {family : Families}

/-- A text that writes the words of a well-bracketed expression is read as that expression. -/
theorem exists_ofText_eq (wellBracketed : e.WellBracketed)
    (written : Written s.toList (e.flatten family)) :
    ∃ u, ofText s = .ok u ∧ u.mapMark Mark.unnumbered = e.mapMark Mark.written := by
  obtain ⟨body, stop, scanned, marked, words⟩ := written.exists_scan_eq
  obtain ⟨p, parsed, marks⟩ := parse_of_flatten wellBracketed family marked words
  have tokens : Token.tokenize s = body ++ [stop] := congrArg Scan.tokens scanned
  have unmarked : ∀ t ∈ body, t.isStop = false := by
    obtain ⟨body', stop', cut, -, unmarked⟩ := Token.exists_tokenize_eq s
    rw [tokens] at cut
    obtain ⟨rfl, -⟩ := List.append_inj' cut rfl
    exact unmarked
  have passed : Token.lint (body ++ [stop]) = none :=
    (lint_eq_none_iff unmarked marked).mpr ⟨p, parsed⟩
  exact ⟨p.root, by rw [ofText, parseText, parseLinted, tokens, passed, parsed], marks⟩

/-! ### The brackets that a text adds -/

/-- The expression with a pair of brackets around it, if it is binary and has none. -/
def guarded (e : Expr) : Expr := if e.isBare then e.withMark ⟨e.mark.id, 1⟩ else e

/-- The expression with the brackets that its text adds. -/
def printed : Expr → Expr
  | var m name => var m name
  | const m value => const m value
  | not m e => not m e.printed.guarded
  | binary m op l r => binary m op l.printed.guarded r.printed.guarded

theorem isBare_printed (e : Expr) : e.printed.isBare = e.isBare := by
  cases e <;> rfl

theorem shape_guarded (e : Expr) : e.guarded.shape = e.shape := by
  unfold guarded
  split
  · exact shape_withMark _ e
  · rfl

theorem shape_printed (e : Expr) : e.printed.shape = e.shape := by
  induction e with
  | var | const => rfl
  | not m e ih => simp only [printed, shape, shape_guarded, ih]
  | binary m op l r ihl ihr => simp only [printed, shape, shape_guarded, ihl, ihr]

/-- A guarded expression needs no brackets as an operand. -/
theorem bareConnective?_guarded (e : Expr) : e.guarded.bareConnective? = none := by
  unfold guarded
  split
  · refine bareConnective?_of_grouped ?_
    rw [mark_withMark]
    exact Int.one_pos
  · rename_i notBare
    cases e with
    | var | const | not => rfl
    | binary m op l r => simpa [bareConnective?, isBare] using notBare

theorem wellBracketed_guarded : e.guarded.WellBracketed ↔ e.WellBracketed := by
  unfold guarded
  split
  · exact wellBracketed_withMark _ e
  · rfl

theorem wellBracketed_printed (e : Expr) : e.printed.WellBracketed := by
  induction e with
  | var | const => trivial
  | not m e ih => exact ⟨bareConnective?_guarded _, wellBracketed_guarded.mpr ih⟩
  | binary m op l r ihl ihr =>
    refine ⟨?_, ?_, wellBracketed_guarded.mpr ihl, wellBracketed_guarded.mpr ihr⟩ <;>
      simp [bareConnective?_guarded]

/-- A bare node shows no brackets. -/
theorem brackets_of_isBare (bare : e.isBare = true) : e.mark.brackets.toNat = 0 := by
  cases e with
  | var | const | not => cases bare
  | binary m op l r =>
    have notGrouped : ¬ 0 < m.brackets := by simpa [isBare, Mark.isGrouped] using bare
    simp only [mark]
    omega

theorem written_guarded (written : Written s.toList (e.flatten Families.round)) :
    Written (Formula.bracketedIf e.isBare s).toList (e.guarded.flatten Families.round) := by
  unfold guarded Formula.bracketedIf
  split
  · rename_i bare
    have inner : e.flatten Families.round = (e.withMark {}).flatten Families.round := by
      rw [flatten_eq_bracketed, brackets_of_isBare bare, Sentential.bracketed]
    rw [inner] at written
    rw [flatten_withMark]
    exact written.enclose ⟨e.mark.id, 1⟩
  · exact written

/-- The text of an expression writes it with the brackets that the text adds. -/
theorem written_text (named : ∀ name ∈ e.shape.vars, spellsName name = true) :
    Written e.text.toList (e.printed.flatten Families.round) := by
  induction e with
  | var m name =>
    have spelled : spellsName name = true := named name (List.mem_singleton_self name)
    exact (Token.written_name spelled).enclose m
  | const m value =>
    have written : Written (Formula.constText value).toList [⟨.constant value, ""⟩] := by
      cases value <;> exact Token.written_sign rfl
    exact written.enclose m
  | not m e ih =>
    have operand := written_guarded (ih named)
    rw [isBare_printed] at operand
    exact operand.negation.enclose m
  | binary m op l r ihl ihr =>
    simp only [shape, Formula.vars, List.mem_append] at named
    have left := written_guarded (ihl fun name mem => named name (Or.inl mem))
    have right := written_guarded (ihr fun name mem => named name (Or.inr mem))
    rw [isBare_printed] at left right
    exact (left.binary op right).enclose m

/-! ### Marks and texts -/

theorem shape_mapMark (f : Mark → Mark) (e : Expr) : (e.mapMark f).shape = e.shape := by
  induction e with
  | var | const => rfl
  | not m e ih => simp only [mapMark, shape, ih]
  | binary m op l r ihl ihr => simp only [mapMark, shape, ihl, ihr]

/-- A text shows of a mark only how many brackets it has. -/
theorem text_mapMark {f : Mark → Mark}
    (kept : ∀ m : Mark, (f m).brackets.toNat = m.brackets.toNat) (e : Expr) :
    (e.mapMark f).text = e.text := by
  have enclose : ∀ (m : Mark) (s : String), (f m).enclose s = m.enclose s := by
    intro m s
    rw [Mark.enclose, Mark.enclose, kept]
  have isBare : ∀ e : Expr, (e.mapMark f).isBare = e.isBare := by
    intro e
    cases e with
    | var | const | not => rfl
    | binary m op l r =>
      have same : 0 < (f m).brackets ↔ 0 < m.brackets := by
        have := kept m
        omega
      simp [mapMark, Expr.isBare, Mark.isGrouped, same]
  induction e with
  | var m name => exact enclose m _
  | const m value => exact enclose m _
  | not m e ih => simp only [mapMark, text, enclose, isBare, ih]
  | binary m op l r ihl ihr => simp only [mapMark, text, enclose, isBare, ihl, ihr]

theorem text_unnumbered (e : Expr) : (e.mapMark Mark.unnumbered).text = e.text :=
  text_mapMark (f := Mark.unnumbered) (fun _ => rfl) e

theorem text_written (e : Expr) : (e.mapMark Mark.written).text = e.text := by
  refine text_mapMark (fun m => ?_) e
  simp only [Mark.written]
  omega

/-- Brackets on the mark are shown like the ones that the text adds. -/
theorem text_guarded (e : Expr) : e.guarded.text = Formula.bracketedIf e.isBare e.text := by
  unfold guarded Formula.bracketedIf
  split
  · rename_i bare
    have hidden := brackets_of_isBare bare
    cases e with
    | var | const | not => cases bare
    | binary m op l r =>
      simp only [mark] at hidden
      simp [withMark, text, Mark.enclose, hidden]
  · rfl

theorem isBare_guarded (e : Expr) : e.guarded.isBare = false := by
  have unneeded := bareConnective?_guarded e
  cases shown : e.guarded with
  | var | const | not => rfl
  | binary m op l r =>
    rw [shown, bareConnective?] at unneeded
    simpa [isBare] using unneeded

theorem text_printed (e : Expr) : e.printed.text = e.text := by
  induction e with
  | var | const => rfl
  | not m e ih =>
    simp only [printed, text, isBare_guarded, text_guarded, isBare_printed, ih]
    rfl
  | binary m op l r ihl ihr =>
    simp only [printed, text, isBare_guarded, text_guarded, isBare_printed, ihl, ihr]
    rfl

/-- What is read from the text of an expression has its shape and its text. -/
theorem exists_ofText_text (named : ∀ name ∈ e.shape.vars, spellsName name = true) :
    ∃ u, ofText e.text = .ok u ∧ u.shape = e.shape ∧ u.text = e.text := by
  obtain ⟨u, read, marks⟩ := exists_ofText_eq (wellBracketed_printed e) (written_text named)
  refine ⟨u, read, ?_, ?_⟩
  · calc u.shape = (u.mapMark Mark.unnumbered).shape := (shape_mapMark _ u).symm
      _ = e.printed.shape := by rw [marks, shape_mapMark]
      _ = e.shape := shape_printed e
  · calc u.text = (u.mapMark Mark.unnumbered).text := (text_unnumbered u).symm
      _ = e.printed.text := by rw [marks, text_written]
      _ = e.text := text_printed e

/-! ### Formulas -/

/-- A formula as an expression without brackets. -/
def ofFormula : Formula → Expr
  | .var name => var {} name
  | .const value => const {} value
  | .not f => not {} (ofFormula f)
  | .binary op l r => binary {} op (ofFormula l) (ofFormula r)

theorem shape_ofFormula (f : Formula) : (ofFormula f).shape = f := by
  induction f with
  | var | const => rfl
  | not f ih => rw [ofFormula, shape, ih]
  | binary op l r ihl ihr => rw [ofFormula, shape, ihl, ihr]

theorem isBare_ofFormula (f : Formula) : (ofFormula f).isBare = f.isBinary := by
  cases f <;> rfl

theorem enclose_default (s : String) : ({} : Mark).enclose s = s := by
  simp [Mark.enclose]

theorem text_ofFormula (f : Formula) : (ofFormula f).text = f.text := by
  induction f with
  | var name => exact enclose_default name
  | const value => exact enclose_default _
  | not f ih => simp only [ofFormula, text, Formula.text, enclose_default, isBare_ofFormula, ih]
  | binary op l r ihl ihr =>
    simp only [ofFormula, text, Formula.text, enclose_default, isBare_ofFormula, ihl, ihr]

/-- What is read from the text of a formula is that formula. -/
theorem exists_ofText_formula (named : ∀ name ∈ f.vars, spellsName name = true) :
    ∃ u, ofText f.text = .ok u ∧ u.shape = f := by
  have named' : ∀ name ∈ (ofFormula f).shape.vars, spellsName name = true := by
    rwa [shape_ofFormula]
  obtain ⟨u, read, shape, -⟩ := exists_ofText_text named'
  rw [text_ofFormula] at read
  rw [shape_ofFormula] at shape
  exact ⟨u, read, shape⟩

/-- **Texts are read back.** Let the variables of an expression be letters with digits. Then the
text of its formula and its own text are read without a diagnostic, both as that formula; and what
is read has the same texts again, the brackets included. -/
theorem text_reads_back (e : Expr) (named : ∀ name ∈ e.shape.vars, spellsName name = true) :
    (∃ u, ofText e.shape.text = .ok u ∧ u.shape = e.shape ∧ u.shape.text = e.shape.text) ∧
      ∃ u, ofText e.text = .ok u ∧ u.shape = e.shape ∧ u.text = e.text := by
  constructor
  · obtain ⟨u, read, shape⟩ := exists_ofText_formula named
    exact ⟨u, read, shape, congrArg Formula.text shape⟩
  · exact exists_ofText_text named

/-- The expression `(¬¬(A1 → 1)) ⊕ ((B ↔ X20))`; the pair around the negation and one around the
equivalence are its own. -/
def doublyBracketed : Expr :=
  .binary {} .xor (.not ⟨3, 1⟩ (.not {} (.binary {} .implies (.var {} "A1") (.const {} true))))
    (.binary ⟨7, 2⟩ .iff (.var {} "B") (.var {} "X20"))

theorem text_reads_back_doublyBracketed :
    (∀ name ∈ doublyBracketed.shape.vars, spellsName name = true) ∧
      doublyBracketed.shape.text = "¬¬(A1 → 1) ⊕ (B ↔ X20)" ∧
      (∃ u, ofText "¬¬(A1 → 1) ⊕ (B ↔ X20)" = .ok u ∧ u.shape = doublyBracketed.shape) ∧
      doublyBracketed.text = "(¬¬(A1 → 1)) ⊕ ((B ↔ X20))" ∧
      ∃ u, ofText "(¬¬(A1 → 1)) ⊕ ((B ↔ X20))" = .ok u ∧ u.shape = doublyBracketed.shape ∧
        u.text = "(¬¬(A1 → 1)) ⊕ ((B ↔ X20))" := by
  have named : ∀ name ∈ doublyBracketed.shape.vars, spellsName name = true := by decide
  have canonical : doublyBracketed.shape.text = "¬¬(A1 → 1) ⊕ (B ↔ X20)" := by decide
  have shown : doublyBracketed.text = "(¬¬(A1 → 1)) ⊕ ((B ↔ X20))" := by decide
  obtain ⟨⟨u, readCanonical, shape, -⟩, u', readShown, shape', text⟩ :=
    text_reads_back doublyBracketed named
  rw [canonical] at readCanonical
  rw [shown] at readShown text
  exact ⟨named, canonical, ⟨u, readCanonical, shape⟩, shown, u', readShown, shape', text⟩

end Expr

end Sentential
