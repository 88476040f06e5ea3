import Sentential.Karnaugh
import Sentential.Proofs.Parse.RoundTrip

/-!
# Sums of products as formulas

The text of a sum of products has no brackets. It is read back as the sum of products that it was
made from, because conjunctions bind more tightly than disjunctions and both are grouped from the
left.

## Main definitions

* `Expr.chain` — expressions joined by one connective
* `Karnaugh.sum`, `Karnaugh.sumExpr` — a sum of products as a text and as an expression

## Main results

* `Karnaugh.exists_ofText_sum` — the text of a sum of products is read as its expression
* `Karnaugh.eval_sumExpr` — the value of a sum of products
-/

namespace Sentential

open Token (Word Written Apart spellsName apart_cons)

namespace Expr

variable {op : Connective} {e r : Expr} {es : List Expr} {v : String → Bool} {x : String}

/-- Expressions joined by a connective from the left; a constant if there are none. -/
def chain (op : Connective) (empty : Bool) : List Expr → Expr
  | [] => .const {} empty
  | e :: es => es.foldl (.binary {} op) e

theorem flatten_foldl (op : Connective) (e : Expr) (es : List Expr) :
    (es.foldl (.binary {} op) e).flatten Families.round = e.flatten Families.round ++
      es.flatMap fun r => ⟨.binary op, ""⟩ :: r.flatten Families.round := by
  induction es generalizing e with
  | nil => simp
  | cons r es ih =>
    have joined : (binary {} op e r).flatten Families.round =
        e.flatten Families.round ++ ⟨.binary op, ""⟩ :: r.flatten Families.round := rfl
    rw [List.foldl_cons, ih, joined, List.flatMap_cons, List.append_assoc]

/-- A chain joined from the left needs brackets only around operands that bind less tightly. -/
theorem wellBracketed_foldl (first : e.WellBracketed)
    (tight : ∀ inner ∈ e.bareConnective?, op.strength ≤ inner.strength)
    (others : ∀ r ∈ es, r.WellBracketed ∧
      ∀ inner ∈ r.bareConnective?, op.strength < inner.strength) :
    (es.foldl (.binary {} op) e).WellBracketed := by
  induction es generalizing e with
  | nil => exact first
  | cons r es ih =>
    rw [List.forall_mem_cons] at others
    obtain ⟨⟨right, tightR⟩, others⟩ := others
    -- What is joined so far is the left operand of the same connective, which needs no brackets.
    refine ih ⟨tight, tightR, first, right⟩ ?_ others
    intro inner root
    obtain rfl : op = inner := Option.some.inj root
    exact Nat.le_refl _

theorem bareConnective?_foldl {inner : Connective}
    (root : inner ∈ (es.foldl (.binary {} op) e).bareConnective?) :
    inner = op ∨ inner ∈ e.bareConnective? := by
  induction es generalizing e with
  | nil => exact Or.inr root
  | cons r es ih =>
    rcases ih root with same | root
    · exact Or.inl same
    · exact Or.inl (Option.some.inj root).symm

theorem eval_foldl_and (e : Expr) (es : List Expr) :
    (es.foldl (.binary {} .and) e).shape.eval v =
      (e.shape.eval v && es.all fun r => r.shape.eval v) := by
  induction es generalizing e with
  | nil => simp
  | cons r es ih => simp [ih, shape, Formula.eval, Connective.apply, Bool.and_assoc]

theorem eval_foldl_or (e : Expr) (es : List Expr) :
    (es.foldl (.binary {} .or) e).shape.eval v =
      (e.shape.eval v || es.any fun r => r.shape.eval v) := by
  induction es generalizing e with
  | nil => simp
  | cons r es ih => simp [ih, shape, Formula.eval, Connective.apply, Bool.or_assoc]

theorem mem_vars_foldl (occurs : x ∈ (es.foldl (.binary {} op) e).shape.vars) :
    ∃ r ∈ e :: es, x ∈ r.shape.vars := by
  induction es generalizing e with
  | nil => exact ⟨e, List.mem_cons_self, occurs⟩
  | cons r es ih =>
    obtain ⟨r', mem, occurs⟩ := ih occurs
    rcases List.mem_cons.mp mem with rfl | later
    · rcases List.mem_append.mp occurs with inLeft | inRight
      · exact ⟨e, List.mem_cons_self, inLeft⟩
      · exact ⟨r, by simp, inRight⟩
    · exact ⟨r', by simp [later], occurs⟩

/-- Texts with a separator between them write the chain of what they write. -/
theorem written_foldl {ι : Type} {sep : String} {text : ι → String} {expr : ι → Expr}
    (separates : ∀ cs ws, Written cs ws → Written (sep.toList ++ cs) (⟨.binary op, ""⟩ :: ws))
    (apart : ∀ cs, Apart (sep.toList ++ cs)) (i : ι) (is : List ι)
    (each : ∀ j ∈ i :: is, Written (text j).toList ((expr j).flatten Families.round)) :
    Written (sep.intercalate ((i :: is).map text)).toList
      (((is.map expr).foldl (.binary {} op) (expr i)).flatten Families.round) := by
  rw [flatten_foldl]
  induction is generalizing i with
  | nil => simpa using each i List.mem_cons_self
  | cons j is ih =>
    rw [List.forall_mem_cons] at each
    have later := separates _ _ (ih j each.2)
    have joined := each.1.append later (apart _)
    simpa [String.intercalate_cons_cons, String.toList_append] using joined

end Expr

namespace Karnaugh

variable {ls : List (String × Bool)} {lss : List (List (String × Bool))} {l : String × Bool}
variable {v : String → Bool} {x : String}

/-- A literal as an expression. -/
def literalExpr (l : String × Bool) : Expr := if l.2 then .var {} l.1 else .not {} (.var {} l.1)

/-- A product of literals as an expression. -/
def productExpr (ls : List (String × Bool)) : Expr := .chain .and true (ls.map literalExpr)

/-- A sum of products as an expression. -/
def sumExpr (lss : List (List (String × Bool))) : Expr := .chain .or false (lss.map productExpr)

/-- The text of a sum of products. -/
def sum (lss : List (List (String × Bool))) : String :=
  match lss with
  | [] => "0"
  | _ => (" " ++ Connective.or.symbol ++ " ").intercalate (lss.map product)

/-- All literals are true. -/
def holds (v : String → Bool) (ls : List (String × Bool)) : Bool := ls.all fun l => v l.1 == l.2

/-! ### Values -/

theorem eval_literalExpr (l : String × Bool) : (literalExpr l).shape.eval v = (v l.1 == l.2) := by
  obtain ⟨x, b⟩ := l
  cases b <;> simp [literalExpr, Expr.shape, Formula.eval]

theorem eval_productExpr (ls : List (String × Bool)) :
    (productExpr ls).shape.eval v = holds v ls := by
  cases ls with
  | nil => rfl
  | cons l ls =>
    rw [productExpr, List.map_cons, Expr.chain, Expr.eval_foldl_and, holds, List.all_cons,
      List.all_map, eval_literalExpr]
    simp only [Function.comp_def, eval_literalExpr]

/-- A sum of products is true where all literals of some product are. -/
theorem eval_sumExpr (lss : List (List (String × Bool))) :
    (sumExpr lss).shape.eval v = lss.any (holds v) := by
  cases lss with
  | nil => rfl
  | cons ls lss =>
    rw [sumExpr, List.map_cons, Expr.chain, Expr.eval_foldl_or, List.any_cons, List.any_map,
      eval_productExpr]
    simp only [Function.comp_def, eval_productExpr]

/-! ### Variables -/

theorem eq_of_mem_vars_literalExpr (occurs : x ∈ (literalExpr l).shape.vars) : l.1 = x := by
  obtain ⟨y, b⟩ := l
  cases b <;> exact (List.mem_singleton.mp occurs).symm

theorem exists_mem_of_mem_vars_productExpr (occurs : x ∈ (productExpr ls).shape.vars) :
    ∃ l ∈ ls, l.1 = x := by
  cases ls with
  | nil => cases occurs
  | cons l ls =>
    obtain ⟨r, mem, occurs⟩ := Expr.mem_vars_foldl occurs
    rw [← List.map_cons] at mem
    obtain ⟨l', listed, rfl⟩ := List.mem_map.mp mem
    exact ⟨l', listed, eq_of_mem_vars_literalExpr occurs⟩

theorem exists_mem_of_mem_vars_sumExpr (occurs : x ∈ (sumExpr lss).shape.vars) :
    ∃ ls ∈ lss, ∃ l ∈ ls, l.1 = x := by
  cases lss with
  | nil => cases occurs
  | cons ls lss =>
    obtain ⟨r, mem, occurs⟩ := Expr.mem_vars_foldl occurs
    rw [← List.map_cons] at mem
    obtain ⟨ls', listed, rfl⟩ := List.mem_map.mp mem
    exact ⟨ls', listed, exists_mem_of_mem_vars_productExpr occurs⟩

/-! ### Texts -/

theorem wellBracketed_literalExpr (l : String × Bool) :
    (literalExpr l).WellBracketed ∧ (literalExpr l).bareConnective? = none := by
  obtain ⟨x, b⟩ := l
  cases b
  · exact ⟨⟨rfl, trivial⟩, rfl⟩
  · exact ⟨trivial, rfl⟩

theorem wellBracketed_productExpr (ls : List (String × Bool)) :
    (productExpr ls).WellBracketed ∧
      ∀ inner ∈ (productExpr ls).bareConnective?, inner = .and := by
  cases ls with
  | nil => exact ⟨trivial, fun _ root => by cases root⟩
  | cons l ls =>
    have first := wellBracketed_literalExpr l
    constructor
    · refine Expr.wellBracketed_foldl first.1 (by simp [first.2]) fun r mem => ?_
      obtain ⟨l', -, rfl⟩ := List.mem_map.mp mem
      have later := wellBracketed_literalExpr l'
      exact ⟨later.1, by simp [later.2]⟩
    · intro inner root
      rcases Expr.bareConnective?_foldl root with same | root
      · exact same
      · rw [first.2] at root
        cases root

theorem wellBracketed_sumExpr (lss : List (List (String × Bool))) :
    (sumExpr lss).WellBracketed := by
  cases lss with
  | nil => trivial
  | cons ls lss =>
    have product := wellBracketed_productExpr ls
    refine Expr.wellBracketed_foldl product.1 (fun inner root => ?_) fun r mem => ?_
    · rw [product.2 inner root]
      decide
    · obtain ⟨ls', -, rfl⟩ := List.mem_map.mp mem
      have product := wellBracketed_productExpr ls'
      refine ⟨product.1, fun inner root => ?_⟩
      rw [product.2 inner root]
      decide

theorem written_literalText (named : spellsName l.1 = true) :
    Written (literalText l).toList ((literalExpr l).flatten Families.round) := by
  obtain ⟨x, b⟩ := l
  cases b
  · exact (Token.written_name named).negation
  · exact Token.written_name named

theorem written_product (named : ∀ l ∈ ls, spellsName l.1 = true) :
    Written (product ls).toList ((productExpr ls).flatten Families.round) := by
  cases ls with
  | nil => exact Token.written_sign rfl
  | cons l ls =>
    refine Expr.written_foldl (fun cs ws written => ?_) (fun cs => ?_) l ls fun l' mem => ?_
    · exact .sign rfl written
    · exact apart_cons rfl
    · exact written_literalText (named l' mem)

theorem written_sum (named : ∀ ls ∈ lss, ∀ l ∈ ls, spellsName l.1 = true) :
    Written (sum lss).toList ((sumExpr lss).flatten Families.round) := by
  cases lss with
  | nil => exact Token.written_sign rfl
  | cons ls lss =>
    refine Expr.written_foldl (fun cs ws written => ?_) (fun cs => ?_) ls lss fun ls' mem => ?_
    · exact .space (.sign rfl (.space written))
    · exact apart_cons rfl
    · exact written_product (named ls' mem)

/-- The text of a sum of products is read as that sum. -/
theorem exists_ofText_sum (named : ∀ ls ∈ lss, ∀ l ∈ ls, spellsName l.1 = true) :
    ∃ u, Expr.ofText (sum lss) = .ok u ∧ u.shape = (sumExpr lss).shape := by
  obtain ⟨u, read, marks⟩ :=
    Expr.exists_ofText_eq (wellBracketed_sumExpr lss) (written_sum named)
  have shape := congrArg Expr.shape marks
  rw [Expr.shape_mapMark, Expr.shape_mapMark] at shape
  exact ⟨u, read, shape⟩

theorem sum_singleton (ls : List (String × Bool)) : sum [ls] = product ls := by simp [sum]

/-- The text of a product is read as that product. -/
theorem exists_ofText_product (named : ∀ l ∈ ls, spellsName l.1 = true) :
    ∃ u, Expr.ofText (product ls) = .ok u ∧ u.shape = (productExpr ls).shape := by
  rw [← sum_singleton]
  exact exists_ofText_sum (List.forall_mem_singleton.mpr named)

end Karnaugh

end Sentential
