import Mathlib.Algebra.Order.Ring.Nat
import Mathlib.Data.List.Basic
import Sentential.Decimal.Layout

/-!
# The form of written numbers

A positive double lies at or above the power of ten that its place names, so on every grid below
that place both of its neighbours have digits, and so has the decimal that stands for it. Its digits
therefore begin with another digit than zero, and every layout makes a numeral of them: a whole part
without a zero in front, and a fraction or an exponent behind it.

## Main definitions

* `Decimal.AreDigits`, `Decimal.IsWhole` — digits, and digits without a superfluous zero in front
* `Decimal.Numeral` — a whole part with a fraction or an exponent

## Main results

* `Decimal.Cell.digits_shortest_ne_zero` — the shortest decimal of a positive double is positive
* `Decimal.Layout.numeral_decimal` — what a layout writes for a positive decimal is a numeral
* `Decimal.Layout.toList_ofBits` — the forms of all doubles
-/

namespace Sentential.Decimal

/-! ### The shortest decimal is positive -/

namespace Cell

variable {c : Cell} {num den fuel count exponent fraction : Nat} {d : Scientific}

/-- So many leading zeros are counted that the next digit is not zero, unless the count is stopped
before. -/
theorem le_mul_pow_leadingZeros (reached : den ≤ num * 10 ^ (fuel + 1)) :
    den ≤ num * 10 ^ (leadingZeros num den fuel + 1) := by
  induction fuel generalizing num with
  | zero => exact reached
  | succ fuel ih =>
    rw [leadingZeros]
    split
    · rename_i here
      simpa using here
    · rw [Nat.pow_succ', ← Nat.mul_assoc] at reached ⊢
      exact ih reached

/-- A number has a digit at the place of its greatest digit. -/
theorem pow_length_toDigits_le {n : Nat} (positive : 0 < n) :
    10 ^ ((Nat.toDigits 10 n).length - 1) ≤ n := by
  by_contra less
  rcases Nat.eq_zero_or_pos ((Nat.toDigits 10 n).length - 1) with single | more
  · rw [single] at less
    omega
  · have shorter := (Nat.length_toDigits_le_iff (by decide) more).mpr (Nat.not_le.mp less)
    omega

/-- The double is at least `10 ^ -359`, which is within the count of leading zeros. -/
structure IsResolved (c : Cell) : Prop where
  unitDen_pos : 0 < c.unitDen
  reached : ∀ limit, 359 ≤ limit → c.unitDen ≤ c.middle * c.unitNum * 10 ^ limit

/-- On a grid below its place the double is at least one unit. -/
theorem IsResolved.le_of_lt_place (resolved : c.IsResolved) (below : 0 < count) :
    c.unitDen * 10 ^ (c.place - count).toNat ≤
      c.middle * c.unitNum * 10 ^ (-(c.place - count)).toNat := by
  by_cases whole : c.unitDen ≤ c.middle * c.unitNum
  · have quotient : 0 < c.middle * c.unitNum / c.unitDen := Nat.div_pos whole resolved.unitDen_pos
    have place : c.place = (Nat.toDigits 10 (c.middle * c.unitNum / c.unitDen)).length :=
      if_pos whole
    rw [place]
    set length := (Nat.toDigits 10 (c.middle * c.unitNum / c.unitDen)).length
    rcases Nat.le_total length count with low | high
    · have grid : ((length : Int) - count).toNat = 0 := by omega
      rw [grid, Nat.pow_zero, Nat.mul_one]
      exact Nat.le_trans whole (Nat.le_mul_of_pos_right _ (Nat.pow_pos (by decide)))
    · have grid : ((length : Int) - count).toNat ≤ length - 1 := by omega
      have shift : (-((length : Int) - count)).toNat = 0 := by omega
      rw [shift, Nat.pow_zero, Nat.mul_one]
      calc c.unitDen * 10 ^ ((length : Int) - count).toNat
          ≤ c.unitDen * 10 ^ (length - 1) :=
            Nat.mul_le_mul_left _ (Nat.pow_le_pow_right (by decide) grid)
        _ ≤ c.unitDen * (c.middle * c.unitNum / c.unitDen) :=
            Nat.mul_le_mul_left _ (pow_length_toDigits_le quotient)
        _ ≤ c.middle * c.unitNum := Nat.mul_div_le _ _
  · have place : c.place = -(leadingZeros (c.middle * c.unitNum) c.unitDen 400 : Nat) :=
      if_neg whole
    have next := le_mul_pow_leadingZeros (resolved.reached (400 + 1) (by decide))
    rw [place]
    set zeros := leadingZeros (c.middle * c.unitNum) c.unitDen 400
    have grid : (-(zeros : Int) - count).toNat = 0 := by omega
    have shift : zeros + 1 ≤ (-(-(zeros : Int) - count)).toNat := by omega
    rw [grid, Nat.pow_zero, Nat.mul_one]
    exact Nat.le_trans next (Nat.mul_le_mul_left _ (Nat.pow_le_pow_right (by decide) shift))

/-- Both neighbours on such a grid are positive. -/
theorem IsResolved.digits_neighbours_ne_zero (resolved : c.IsResolved) (below : 0 < count)
    (mem : d ∈ c.neighbours (c.place - count)) : d.digits ≠ 0 := by
  have unit := resolved.le_of_lt_place below
  have grid : 0 < c.unitDen * 10 ^ (c.place - count).toNat :=
    Nat.mul_pos resolved.unitDen_pos (Nat.pow_pos (by decide))
  have lower := Nat.div_pos unit grid
  unfold neighbours at mem
  dsimp only [Nat.pow_eq] at mem
  split at mem <;> rcases List.mem_pair.mp mem with rfl | rfl <;> dsimp only <;> omega

theorem IsResolved.digits_search_ne_zero (resolved : c.IsResolved) (below : 0 < count) :
    (c.search count fuel).digits ≠ 0 := by
  induction fuel generalizing count with
  | zero =>
    have near : ∀ d, (c.neighbours (c.place - count)).head? = some d → d.digits ≠ 0 :=
      fun d first => resolved.digits_neighbours_ne_zero below (List.mem_of_head? first)
    have nonempty : ∃ d, (c.neighbours (c.place - count)).head? = some d := by
      unfold neighbours
      dsimp only
      split <;> exact ⟨_, rfl⟩
    obtain ⟨d, first⟩ := nonempty
    rw [search, first, Option.getD_some]
    exact near d first
  | succ fuel ih =>
    rw [search]
    split
    · rename_i d found
      exact resolved.digits_neighbours_ne_zero below (List.mem_of_find?_eq_some found)
    · exact ih (Nat.succ_pos count)

theorem digits_dropZeros_ne_zero (positive : d.digits ≠ 0) : (dropZeros d fuel).digits ≠ 0 := by
  induction fuel generalizing d with
  | zero => exact positive
  | succ fuel ih =>
    rw [dropZeros]
    split
    · rename_i zero
      exact ih (by dsimp only; omega)
    · exact positive

theorem isResolved_ofFields (nonzero : ¬ (exponent = 0 ∧ fraction = 0)) :
    (ofFields exponent fraction).IsResolved where
  unitDen_pos := Nat.pow_pos (by decide)
  reached limit least := by
    have significand : 0 < (if exponent = 0 then fraction else fraction + Nat.pow 2 52) := by
      split
      · rename_i least
        exact Nat.pos_of_ne_zero fun zero => nonzero ⟨least, zero⟩
      · exact Nat.add_pos_right _ (Nat.pow_pos (by decide))
    have middle : 0 < (ofFields exponent fraction).middle := Nat.mul_pos (by decide) significand
    have unit : 0 < (ofFields exponent fraction).unitNum := Nat.pow_pos (by decide)
    have shift : (-((max exponent 1 : Nat) - 1077 : Int)).toNat ≤ 3 * limit := by omega
    calc (ofFields exponent fraction).unitDen
        ≤ 2 ^ (3 * limit) := Nat.pow_le_pow_right (by decide) shift
      _ = 8 ^ limit := Nat.pow_mul 2 3 limit
      _ ≤ 10 ^ limit := Nat.pow_le_pow_left (by decide) limit
      _ ≤ _ := Nat.le_mul_of_pos_left _ (Nat.mul_pos middle unit)

/-- The decimal that stands for a positive double is positive. -/
theorem digits_shortest_ne_zero (nonzero : ¬ (exponent = 0 ∧ fraction = 0)) :
    (ofFields exponent fraction).shortest.digits ≠ 0 :=
  digits_dropZeros_ne_zero ((isResolved_ofFields nonzero).digits_search_ne_zero Nat.one_pos)

end Cell

/-! ### Numerals -/

/-- One or more decimal digits. -/
def AreDigits (cs : List Char) : Prop := cs ≠ [] ∧ ∀ c ∈ cs, c.isDigit = true

/-- Digits that begin with zero only if there are no others. -/
def IsWhole (cs : List Char) : Prop := AreDigits cs ∧ ∀ rest, cs = '0' :: rest → rest = []

/-- A whole part with a fraction, an exponent with its sign, or both. -/
inductive Numeral : List Char → Prop
  | fraction {whole digits : List Char} (isWhole : IsWhole whole) (areDigits : AreDigits digits) :
      Numeral (whole ++ '.' :: digits)
  | exponent {whole digits : List Char} {sign : Char} (isWhole : IsWhole whole)
      (isSign : sign = '-' ∨ sign = '+') (areDigits : AreDigits digits) :
      Numeral (whole ++ 'e' :: sign :: digits)
  | both {whole fraction digits : List Char} {sign : Char} (isWhole : IsWhole whole)
      (areFraction : AreDigits fraction) (isSign : sign = '-' ∨ sign = '+')
      (areDigits : AreDigits digits) :
      Numeral (whole ++ '.' :: (fraction ++ 'e' :: sign :: digits))

variable {cs ds : List Char} {n : Nat}

theorem AreDigits.append_left (areDigits : AreDigits cs) (others : ∀ c ∈ ds, c.isDigit = true) :
    AreDigits (ds ++ cs) :=
  ⟨List.append_ne_nil_of_right_ne_nil _ areDigits.1,
    List.forall_mem_append.mpr ⟨others, areDigits.2⟩⟩

theorem isDigit_of_mem_zeros {c : Char} (mem : c ∈ List.replicate n '0') : c.isDigit = true := by
  rw [List.eq_of_mem_replicate mem]
  rfl

theorem areDigits_digitChars (n : Nat) : AreDigits (digitChars n) :=
  ⟨Nat.toDigits_ne_nil, fun _ mem => Nat.isDigit_of_mem_toDigits (by decide) (by decide) mem⟩

/-- The digits of a positive number do not begin with zero. -/
theorem head?_digitChars_ne (positive : n ≠ 0) : (digitChars n).head? ≠ some '0' := by
  induction n using Nat.strongRecOn with
  | ind n ih =>
    rw [digitChars]
    by_cases single : n < 10
    · rw [Nat.toDigits_of_lt_base single, List.head?_cons]
      have nonzero : ∀ k < 10, k ≠ 0 → some k.digitChar ≠ some '0' := by decide
      exact nonzero n single positive
    · rw [Nat.toDigits_of_base_le (by decide) (by omega),
        List.head?_append_of_ne_nil _ Nat.toDigits_ne_nil]
      exact ih (n / 10) (by omega) (by omega)

theorem isWhole_of_head?_ne (areDigits : AreDigits cs) (head : cs.head? ≠ some '0') :
    IsWhole cs := by
  refine ⟨areDigits, ?_⟩
  rintro rest rfl
  exact absurd rfl head

theorem isWhole_zero : IsWhole ['0'] :=
  ⟨⟨List.cons_ne_nil _ _, by simp⟩, by simp⟩

theorem IsWhole.exists_cons (isWhole : IsWhole cs) :
    ∃ c rest, cs = c :: rest ∧ c.isDigit = true := by
  cases cs with
  | nil => exact absurd rfl isWhole.1.1
  | cons c rest => exact ⟨c, rest, rfl, isWhole.1.2 c List.mem_cons_self⟩

namespace Numeral

/-- A numeral begins with a digit. -/
theorem exists_cons (numeral : Numeral cs) : ∃ c rest, cs = c :: rest ∧ c.isDigit = true := by
  have whole {left right : List Char} (isWhole : IsWhole left) :
      ∃ c rest, left ++ right = c :: rest ∧ c.isDigit = true := by
    obtain ⟨c, rest, rfl, digit⟩ := isWhole.exists_cons
    exact ⟨c, rest ++ right, rfl, digit⟩
  cases numeral with
  | fraction isWhole => exact whole isWhole
  | exponent isWhole => exact whole isWhole
  | both isWhole => exact whole isWhole

/-- Beside digits a numeral holds a point, a mark for the exponent and its sign. -/
theorem isDigit_or_mem (numeral : Numeral cs) :
    ∀ c ∈ cs, c.isDigit = true ∨ c ∈ ['.', 'e', '-', '+'] := by
  have digits {l : List Char} (areDigits : AreDigits l) :
      ∀ c ∈ l, c.isDigit = true ∨ c ∈ ['.', 'e', '-', '+'] :=
    fun c mem => Or.inl (areDigits.2 c mem)
  have mark {sign : Char} (isSign : sign = '-' ∨ sign = '+') : sign ∈ ['.', 'e', '-', '+'] := by
    rcases isSign with rfl | rfl <;> decide
  cases numeral with
  | fraction isWhole areDigits =>
    rw [List.forall_mem_append, List.forall_mem_cons]
    exact ⟨digits isWhole.1, Or.inr (by decide), digits areDigits⟩
  | exponent isWhole isSign areDigits =>
    rw [List.forall_mem_append, List.forall_mem_cons, List.forall_mem_cons]
    exact ⟨digits isWhole.1, Or.inr (by decide), Or.inr (mark isSign), digits areDigits⟩
  | both isWhole areFraction isSign areDigits =>
    rw [List.forall_mem_append, List.forall_mem_cons, List.forall_mem_append, List.forall_mem_cons,
      List.forall_mem_cons]
    exact ⟨digits isWhole.1, Or.inr (by decide), digits areFraction, Or.inr (by decide),
      Or.inr (mark isSign), digits areDigits⟩

end Numeral

namespace Layout

variable {f : Layout} {d : Scientific} {point : Int}

theorem numeral_positional (areDigits : AreDigits cs) (head : cs.head? ≠ some '0') :
    Numeral (positional cs point) := by
  unfold positional
  split
  · exact .fraction isWhole_zero (areDigits.append_left fun c mem => isDigit_of_mem_zeros mem)
  · rename_i positive
    split
    · refine .fraction (isWhole_of_head?_ne ⟨?_, ?_⟩ ?_) ⟨List.cons_ne_nil _ _, by simp⟩
      · exact List.append_ne_nil_of_left_ne_nil areDigits.1 _
      · exact List.forall_mem_append.mpr ⟨areDigits.2, fun c mem => isDigit_of_mem_zeros mem⟩
      · rwa [List.head?_append_of_ne_nil _ areDigits.1]
    · rename_i inside
      refine .fraction (isWhole_of_head?_ne ⟨?_, ?_⟩ ?_) ⟨?_, ?_⟩
      · simp only [ne_eq, List.take_eq_nil_iff, areDigits.1, or_false]
        omega
      · exact fun c mem => areDigits.2 c (List.mem_of_mem_take mem)
      · rwa [List.head?_take, if_neg (by omega)]
      · rw [ne_eq, List.drop_eq_nil_iff]
        omega
      · exact fun c mem => areDigits.2 c (List.mem_of_mem_drop mem)

/-- An exponent is written with its mark, its sign and digits. -/
theorem exists_exponentMark_eq (width : Nat) (e : Int) : ∃ sign digits,
    exponentMark width e = 'e' :: sign :: digits ∧ (sign = '-' ∨ sign = '+') ∧
      AreDigits digits := by
  refine ⟨_, _, rfl, ?_, (areDigits_digitChars _).append_left fun c mem => isDigit_of_mem_zeros mem⟩
  split
  · exact Or.inl rfl
  · exact Or.inr rfl

/-- A positive decimal is written as a numeral. -/
theorem numeral_decimal (f : Layout) (positive : d.digits ≠ 0) : Numeral (f.decimal d) := by
  have areDigits := areDigits_digitChars d.digits
  have head := head?_digitChars_ne positive
  unfold decimal
  dsimp only
  split
  · exact numeral_positional areDigits head
  · obtain ⟨sign, digits, cut, isSign, areExponent⟩ := exists_exponentMark_eq f.exponentDigits
      (((digitChars d.digits).length : Int) + d.exponent - 1)
    rw [cut]
    split
    · rename_i none
      exact absurd none areDigits.1
    · rename_i c single
      rw [single] at areDigits head
      exact .exponent (isWhole_of_head?_ne areDigits head) isSign areExponent
    · rename_i c rest notSingle several
      rw [several] at areDigits head
      have isWhole : IsWhole [c] := isWhole_of_head?_ne
        ⟨List.cons_ne_nil _ _, fun c' mem => areDigits.2 c'
          (List.mem_cons.mpr (Or.inl (List.mem_singleton.mp mem)))⟩ head
      have more : rest ≠ [] := notSingle
      exact .both isWhole ⟨more, fun c' mem => areDigits.2 c' (List.mem_cons_of_mem _ mem)⟩ isSign
        areExponent

/-- A double is written as one of the words, or as a numeral behind an optional sign. -/
theorem toList_ofBits (f : Layout) (bits : Nat) :
    f.ofBits bits = f.nan ∨ ∃ sign, (sign = "" ∨ sign = "-") ∧
      (f.ofBits bits = sign ++ f.infinity ∨
        ∃ cs, Numeral cs ∧ f.ofBits bits = sign ++ String.ofList cs) := by
  have signs : ∀ p : Prop, [Decidable p] → (if p then "-" else "") = "" ∨
      (if p then "-" else "") = "-" := by
    intro p _
    split
    · exact Or.inr rfl
    · exact Or.inl rfl
  unfold ofBits
  dsimp only
  split
  · split
    · exact Or.inr ⟨_, signs _, Or.inl rfl⟩
    · exact Or.inl rfl
  · split
    · have zero : Numeral ['0', '.', '0'] :=
        .fraction isWhole_zero ⟨List.cons_ne_nil _ _, by simp⟩
      exact Or.inr ⟨_, signs _, Or.inr ⟨_, zero, rfl⟩⟩
    · rename_i nonzero
      exact Or.inr ⟨_, signs _, Or.inr ⟨_, numeral_decimal f
        (Cell.digits_shortest_ne_zero nonzero), rfl⟩⟩

end Layout

end Sentential.Decimal
