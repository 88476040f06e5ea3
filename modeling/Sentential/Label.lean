import Sentential.Text.Digit

/-!
# Labels

How a rendered formula is shown when its negations are simplified on the text alone: pairs of
adjacent negations cancel, and brackets around a lone literal are dropped. Neither changes what the
label says.

## Main definitions

* `NegationMode` — what is simplified
* `Label.cancel` — cancels pairs of adjacent negations
* `Label.unwrap` — drops the brackets around lone literals
* `Label.simplify` — both, until nothing changes
* `NegationMode.apply` — a text under a mode

## Main results

* `literal?_eq_some` — what counts as a literal that closes a bracket
-/

namespace Sentential

/-- What is done to the negations of a label. -/
inductive NegationMode where
  /-- Nothing. -/
  | preserve
  /-- Pairs of adjacent negations cancel. -/
  | normalize
  /-- Besides, brackets around a lone literal are dropped. -/
  | simplify
deriving DecidableEq, Repr, Inhabited

namespace NegationMode

/-- The modes. -/
def all : List NegationMode := [preserve, normalize, simplify]

/-- The name of a mode. -/
def name : NegationMode → String
  | preserve => "preserve"
  | normalize => "normalize"
  | simplify => "simplify"

/-- The mode with a name. -/
def ofName? (s : String) : Option NegationMode := all.find? (fun m => m.name == s)

end NegationMode

namespace Label

/-- A run of negations keeps one of them if their number is odd, and none otherwise. -/
def cancel : List Char → List Char
  | [] => []
  | '¬' :: '¬' :: rest => cancel rest
  | c :: rest => c :: cancel rest

/-- A variable or a constant at the front of a text, and what follows it. -/
def atom? : List Char → Option (List Char × List Char)
  | [] => none
  | c :: rest =>
    if 'A' ≤ c ∧ c ≤ 'Z' then
      some (c :: rest.takeWhile Text.isAsciiDigit, rest.dropWhile Text.isAsciiDigit)
    else if c = '0' ∨ c = '1' then some ([c], rest)
    else none

/-- A literal at the front of a text that a closing bracket follows, and what follows the bracket.
-/
def literal? (cs : List Char) : Option (List Char × List Char) :=
  let (sign, body) :=
    match cs with
    | '¬' :: rest => (['¬'], rest)
    | _ => ([], cs)
  match atom? body with
  | some (atom, ')' :: rest) => some (sign ++ atom, rest)
  | _ => none

theorem atom?_eq_some {cs atom rest : List Char} (h : atom? cs = some (atom, rest)) :
    cs = atom ++ rest := by
  cases cs with
  | nil => simp [atom?] at h
  | cons c cs =>
    simp only [atom?] at h
    split at h
    · simp only [Option.some.injEq, Prod.mk.injEq] at h
      obtain ⟨rfl, rfl⟩ := h
      simp
    · split at h
      · simp only [Option.some.injEq, Prod.mk.injEq] at h
        obtain ⟨rfl, rfl⟩ := h
        simp
      · simp at h

theorem literal?_eq_some {cs literal rest : List Char} (h : literal? cs = some (literal, rest)) :
    cs = literal ++ ')' :: rest := by
  unfold literal? at h
  split at h
  rename_i sign body hsplit
  have hcs : cs = sign ++ body := by
    split at hsplit <;> simp only [Prod.mk.injEq] at hsplit <;> obtain ⟨rfl, rfl⟩ := hsplit <;> rfl
  split at h
  · rename_i atom rest' hatom
    simp only [Option.some.injEq, Prod.mk.injEq] at h
    obtain ⟨rfl, rfl⟩ := h
    rw [hcs, atom?_eq_some hatom, List.append_assoc]
  · simp at h

theorem length_lt_of_literal? {cs literal rest : List Char}
    (h : literal? cs = some (literal, rest)) : literal.length + rest.length < cs.length := by
  rw [literal?_eq_some h, List.length_append, List.length_cons]
  omega

/-- Drops the brackets around lone literals, in one pass from left to right. -/
def unwrap (cs : List Char) : List Char :=
  match cs with
  | [] => []
  | c :: rest =>
    if c = '(' then
      match _h : literal? rest with
      | some (literal, after) => literal ++ unwrap after
      | none => c :: unwrap rest
    else c :: unwrap rest
termination_by cs.length
decreasing_by
  · have := length_lt_of_literal? _h
    simp only [List.length_cons]
    omega
  · simp
  · simp

/-- Drops brackets and cancels negations in turn, as long as that makes the text shorter. -/
def simplify (cs : List Char) : List Char :=
  -- Both steps only drop characters, so a text of equal length is unchanged.
  if (cancel (unwrap cs)).length < cs.length then simplify (cancel (unwrap cs)) else cs
termination_by cs.length

end Label

/-- A text under a mode. -/
def NegationMode.apply (mode : NegationMode) (s : String) : String :=
  match mode with
  | .preserve => s
  | .normalize => String.ofList (Label.cancel s.toList)
  | .simplify => String.ofList (Label.simplify (Label.cancel s.toList))

end Sentential
