import Sentential.Expr.Parse

/-!
# Printing without added brackets

The words of an expression are the words of its root and its operands inside as many brackets as its
marks say, and no others. An expression can be read back from its words only if the brackets are
where the strengths of its connectives need them.

## Main definitions

* `Token.word` — what a token contributes to an expression
* `Families` — which family of brackets each pair is written with
* `Expr.flatten` — the words of an expression
* `Expr.Spells` — some words are those of an expression, with brackets of any families
* `Expr.WellBracketed` — every bare binary operand binds tightly enough for its place
* `Mark.unnumbered`, `Mark.written` — marks as they are compared after reading

## Main results

* `Expr.Spells.not`, `Expr.Spells.binary`, `Expr.Spells.close` — how longer words are spelled
* `Expr.wordNames_flatten` — the names among the words are the variables
-/

namespace Sentential

namespace Token

/-- What a token contributes to an expression. -/
structure Word where
  /-- The kind of the token, without the spelling of an operator. -/
  kind : Kind
  /-- The name of a variable; empty for any other token. -/
  name : String
deriving DecidableEq, Repr

/-- The word of a token. -/
def word (t : Token) : Word := ⟨t.kind, if t.isName then t.text else ""⟩

variable {t : Token} {name : String} {kind : Kind}

theorem word_eq_name_iff : t.word = ⟨.name, name⟩ ↔ t.kind = .name ∧ t.text = name := by
  by_cases hkind : t.kind = .name <;> simp [word, isName, hkind]

theorem word_eq_iff (unnamed : kind ≠ .name) : t.word = ⟨kind, ""⟩ ↔ t.kind = kind := by
  constructor
  · intro same
    exact congrArg Word.kind same
  · rintro rfl
    simp [word, isName, unnamed]

end Token

/-- A family for each pair of brackets in an expression: for the node at the end of a path of
operands, `true` being the right one, and for the pairs around it, counted from inside. -/
abbrev Families : Type := List Bool → Nat → Bracket

namespace Families

/-- The families inside the left or only operand. -/
def left (family : Families) : Families := fun path => family (false :: path)

/-- The families inside the right operand. -/
def right (family : Families) : Families := fun path => family (true :: path)

/-- Families for a node from those around it and those of its operands. -/
def join (around : Nat → Bracket) (inLeft inRight : Families) : Families
  | [] => around
  | false :: path => inLeft path
  | true :: path => inRight path

end Families

/-- Some words inside pairs of brackets. -/
def bracketed (family : Nat → Bracket) : Nat → List Token.Word → List Token.Word
  | 0, ws => ws
  | n + 1, ws =>
    ⟨.opening (family n), ""⟩ :: (bracketed family n ws ++ [⟨.closing (family n), ""⟩])

theorem bracketed_congr {family family' : Nat → Bracket} {n : Nat} {ws : List Token.Word}
    (agree : ∀ k < n, family k = family' k) : bracketed family n ws = bracketed family' n ws := by
  induction n with
  | zero => rfl
  | succ n ih =>
    have inner := ih fun k less => agree k (Nat.lt_succ_of_lt less)
    rw [bracketed, bracketed, inner, agree n (Nat.lt_succ_self n)]

namespace Expr

/-- The words of an expression: brackets only where the marks have them. -/
def flatten : Expr → Families → List Token.Word
  | var m name, family => bracketed (family []) m.brackets.toNat [⟨.name, name⟩]
  | const m value, family => bracketed (family []) m.brackets.toNat [⟨.constant value, ""⟩]
  | not m e, family =>
    bracketed (family []) m.brackets.toNat (⟨.negation, ""⟩ :: e.flatten family.left)
  | binary m op l r, family =>
    bracketed (family []) m.brackets.toNat
      (l.flatten family.left ++ ⟨.binary op, ""⟩ :: r.flatten family.right)

/-- The words are those of the expression, with brackets of any families. -/
def Spells (e : Expr) (ws : List Token.Word) : Prop := ∃ family, e.flatten family = ws

variable {e l r : Expr} {ws ws' : List Token.Word} {op : Connective}

theorem withMark_mark (e : Expr) : e.withMark e.mark = e := by
  cases e <;> rfl

theorem mark_withMark (m : Mark) (e : Expr) : (e.withMark m).mark = m := by
  cases e <;> rfl

theorem withMark_withMark (m m' : Mark) (e : Expr) :
    (e.withMark m).withMark m' = e.withMark m' := by
  cases e <;> rfl

theorem flatten_withMark (m : Mark) (e : Expr) (family : Families) :
    (e.withMark m).flatten family =
      bracketed (family []) m.brackets.toNat ((e.withMark {}).flatten family) := by
  cases e <;> rfl

theorem flatten_eq_bracketed (e : Expr) (family : Families) :
    e.flatten family =
      bracketed (family []) e.mark.brackets.toNat ((e.withMark {}).flatten family) := by
  rw [← flatten_withMark, withMark_mark]

/-- Without brackets around it, a node does not ask for their family. -/
theorem flatten_join (e : Expr) (around : Nat → Bracket) (family : Families) :
    (e.withMark {}).flatten (.join around family.left family.right) =
      (e.withMark {}).flatten family := by
  cases e <;> rfl

theorem spells_var (id : Int) (name : String) : (var ⟨id, 0⟩ name).Spells [⟨.name, name⟩] :=
  ⟨fun _ _ => .paren, rfl⟩

theorem spells_const (id : Int) (value : Bool) :
    (const ⟨id, 0⟩ value).Spells [⟨.constant value, ""⟩] :=
  ⟨fun _ _ => .paren, rfl⟩

theorem Spells.not (id : Int) (spelled : e.Spells ws) :
    (not ⟨id, 0⟩ e).Spells (⟨.negation, ""⟩ :: ws) := by
  obtain ⟨family, rfl⟩ := spelled
  exact ⟨.join (family []) family family, rfl⟩

theorem Spells.binary (id : Int) (op : Connective) (left : l.Spells ws) (right : r.Spells ws') :
    (binary ⟨id, 0⟩ op l r).Spells (ws ++ ⟨.binary op, ""⟩ :: ws') := by
  obtain ⟨inLeft, rfl⟩ := left
  obtain ⟨inRight, rfl⟩ := right
  exact ⟨.join (inLeft []) inLeft inRight, rfl⟩

/-- One more pair of brackets, of any family. -/
theorem Spells.close (bracket : Bracket) (nonneg : 0 ≤ e.mark.brackets) (spelled : e.Spells ws) :
    (e.withMark { e.mark with brackets := e.mark.brackets + 1 }).Spells
      (⟨.opening bracket, ""⟩ :: (ws ++ [⟨.closing bracket, ""⟩])) := by
  obtain ⟨family, rfl⟩ := spelled
  let around : Nat → Bracket :=
    fun n => if n = e.mark.brackets.toNat then bracket else family [] n
  have count : (e.mark.brackets + 1).toNat = e.mark.brackets.toNat + 1 := by omega
  have inner : bracketed around e.mark.brackets.toNat ((e.withMark {}).flatten family) =
      e.flatten family := by
    rw [flatten_eq_bracketed e family]
    refine bracketed_congr fun k less => ?_
    simp only [around, if_neg (Nat.ne_of_lt less)]
  refine ⟨.join around family.left family.right, ?_⟩
  rw [flatten_withMark, flatten_join, count, bracketed, Families.join, inner]
  simp only [around, if_pos]

/-! ### Names -/

/-- The names among some words. -/
def wordNames (ws : List Token.Word) : List String :=
  (ws.filter fun w => decide (w.kind = .name)).map Token.Word.name

theorem wordNames_append (ws ws' : List Token.Word) :
    wordNames (ws ++ ws') = wordNames ws ++ wordNames ws' := by
  rw [wordNames, List.filter_append, List.map_append]
  rfl

theorem wordNames_bracketed (family : Nat → Bracket) (n : Nat) (ws : List Token.Word) :
    wordNames (bracketed family n ws) = wordNames ws := by
  induction n with
  | zero => rfl
  | succ n ih =>
    have closer : wordNames [⟨.closing (family n), ""⟩] = [] := rfl
    calc
      wordNames (bracketed family (n + 1) ws)
        = wordNames (bracketed family n ws ++ [⟨.closing (family n), ""⟩]) := rfl
      _ = wordNames ws := by rw [wordNames_append, closer, List.append_nil, ih]

/-- The names among the words of an expression are its variables. -/
theorem wordNames_flatten (e : Expr) (family : Families) :
    wordNames (e.flatten family) = e.shape.vars := by
  induction e generalizing family with
  | var | const => rw [flatten, wordNames_bracketed]; rfl
  | not m e ih =>
    rw [flatten, wordNames_bracketed]
    exact ih family.left
  | binary m op l r ihl ihr =>
    have operator : ∀ ws, wordNames (⟨.binary op, ""⟩ :: ws) = wordNames ws := fun _ => rfl
    rw [flatten, wordNames_bracketed, wordNames_append, operator, ihl, ihr]
    rfl

theorem wordNames_map_word (ts : List Token) : wordNames (ts.map Token.word) = Token.names ts := by
  have named : (fun w : Token.Word => decide (w.kind = .name)) ∘ Token.word = Token.isName := rfl
  rw [wordNames, List.filter_map, named, Token.names, List.map_map]
  refine List.map_congr_left fun t mem => ?_
  have isName := (List.mem_filter.mp mem).2
  simp only [Function.comp_apply, Token.word, isName, if_true]

/-! ### Brackets that the strengths need -/

/-- The connective at the root, unless there are brackets around it. -/
def bareConnective? : Expr → Option Connective
  | binary m op _ _ => if m.isGrouped then none else some op
  | _ => none

/-- A bare binary operand binds at least as tightly as its connective on the left and tighter on the
right, and a negation has none. -/
def WellBracketed : Expr → Prop
  | var .. | const .. => True
  | not _ e => e.bareConnective? = none ∧ e.WellBracketed
  | binary _ op l r =>
    (∀ inner ∈ l.bareConnective?, op.strength ≤ inner.strength) ∧
      (∀ inner ∈ r.bareConnective?, op.strength < inner.strength) ∧
      l.WellBracketed ∧ r.WellBracketed

/-- Whether an expression is well bracketed can be computed. -/
def decideWellBracketed : (e : Expr) → Decidable e.WellBracketed
  | var .. | const .. => .isTrue trivial
  | not _ e =>
    have := e.decideWellBracketed
    inferInstanceAs (Decidable (_ ∧ _))
  | binary _ _ l r =>
    have := l.decideWellBracketed
    have := r.decideWellBracketed
    inferInstanceAs (Decidable (_ ∧ _ ∧ _ ∧ _))

instance : DecidablePred WellBracketed := decideWellBracketed

theorem wellBracketed_withMark (m : Mark) (e : Expr) :
    (e.withMark m).WellBracketed ↔ e.WellBracketed := by
  cases e <;> rfl

theorem bareConnective?_of_grouped (grouped : 0 < e.mark.brackets) :
    e.bareConnective? = none := by
  cases e with
  | binary m op l r =>
    have isGrouped : m.isGrouped = true := decide_eq_true grouped
    simp [bareConnective?, isGrouped]
  | var | const | not => rfl

end Expr

/-! ### Marks after reading -/

/-- The mark without its number. -/
def Mark.unnumbered (m : Mark) : Mark := ⟨-1, m.brackets⟩

/-- The mark that the text shows: no number, and at least zero brackets. -/
def Mark.written (m : Mark) : Mark := ⟨-1, max 0 m.brackets⟩

namespace Expr

/-- Changes every mark. -/
def mapMark (f : Mark → Mark) : Expr → Expr
  | var m name => var (f m) name
  | const m value => const (f m) value
  | not m e => not (f m) (e.mapMark f)
  | binary m op l r => binary (f m) op (l.mapMark f) (r.mapMark f)

theorem mapMark_withMark (f : Mark → Mark) (m : Mark) (e : Expr) :
    (e.withMark m).mapMark f = (e.mapMark f).withMark (f m) := by
  cases e <;> rfl

theorem mark_mapMark (f : Mark → Mark) (e : Expr) : (e.mapMark f).mark = f e.mark := by
  cases e <;> rfl

end Expr

end Sentential
