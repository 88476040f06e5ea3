/-!
# The shortest decimal of a binary number

The numbers that round to one double form an interval around it. Among the decimals in that interval
the library writes one with the fewest digits, and of those the nearest to the double. All
arithmetic is exact, on natural numbers.

## Main definitions

* `Decimal.Cell` — a positive double with the interval that rounds to it
* `Decimal.Cell.shortest` — digits and exponent of the decimal that stands for the cell
-/

namespace Sentential.Decimal

/-- A positive decimal: `digits · 10 ^ exponent`. -/
structure Scientific where
  /-- The digits, as one number. -/
  digits : Nat
  /-- The power of ten that the last digit counts. -/
  exponent : Int
deriving DecidableEq, Repr

/-- A positive double and its neighbourhood, counted in units of `unitNum / unitDen`. -/
structure Cell where
  /-- The double itself. -/
  middle : Nat
  /-- The lower end of the numbers that round to it. -/
  low : Nat
  /-- The upper end of the numbers that round to it. -/
  high : Nat
  /-- Whether the two ends belong to the interval. -/
  closed : Bool
  /-- The numerator of the unit. -/
  unitNum : Nat
  /-- The denominator of the unit. -/
  unitDen : Nat

namespace Cell

/-- The cell of the double with the given exponent and fraction fields. The lower neighbour is half
as far when the fraction is zero, because the spacing changes at a power of two. -/
def ofFields (exponent fraction : Nat) : Cell :=
  let m := if exponent = 0 then fraction else fraction + Nat.pow 2 52
  let q : Int := (max exponent 1 : Nat) - 1077
  { middle := 4 * m
    -- In units of a quarter of the spacing, the ends lie half a spacing away.
    low := if fraction = 0 ∧ exponent > 1 then 4 * m - 1 else 4 * m - 2
    high := 4 * m + 2
    closed := m % 2 == 0
    unitNum := Nat.pow 2 q.toNat
    unitDen := Nat.pow 2 (-q).toNat }

/-- Whether `digits · 10 ^ exponent` lies in the cell. -/
def admits (c : Cell) (d : Scientific) : Bool :=
  let x := d.digits * Nat.pow 10 d.exponent.toNat * c.unitDen
  let unit := c.unitNum * Nat.pow 10 (-d.exponent).toNat
  if c.closed then c.low * unit ≤ x && x ≤ c.high * unit
  else c.low * unit < x && x < c.high * unit

/-- The number of zeros between the point and the first digit of `num / den`, at most `fuel`. -/
def leadingZeros (num den : Nat) : Nat → Nat
  | 0 => 0
  | fuel + 1 => if den ≤ num * 10 then 0 else leadingZeros (num * 10) den fuel + 1

/-- The place of the first digit: the double is at least `10 ^ (place - 1)` and below `10 ^ place`.
-/
def place (c : Cell) : Int :=
  let num := c.middle * c.unitNum
  if c.unitDen ≤ num then (Nat.toDigits 10 (num / c.unitDen)).length
  else -(leadingZeros num c.unitDen 400 : Nat)

/-- The two neighbours of the double on the grid of `10 ^ exponent`, the nearer one first. -/
def neighbours (c : Cell) (exponent : Int) : List Scientific :=
  let num := c.middle * c.unitNum * Nat.pow 10 (-exponent).toNat
  let den := c.unitDen * Nat.pow 10 exponent.toNat
  let below : Scientific := ⟨num / den, exponent⟩
  let above : Scientific := ⟨num / den + 1, exponent⟩
  let rest := num % den
  -- Of two equally near neighbours the one with an even last digit goes first.
  if 2 * rest < den ∨ (2 * rest = den ∧ below.digits % 2 = 0) then [below, above]
  else [above, below]

/-- The first decimal in the cell on the grids that have from `count` digits up to seventeen. -/
def search (c : Cell) (count : Nat) : Nat → Scientific
  | 0 => ((c.neighbours (c.place - count)).head?).getD ⟨0, 0⟩
  | fuel + 1 =>
    match (c.neighbours (c.place - count)).find? c.admits with
    | some d => d
    | none => search c (count + 1) fuel

/-- Moves the zeros at the end of the digits into the exponent; at most `fuel` of them. -/
def dropZeros (d : Scientific) : Nat → Scientific
  | 0 => d
  | fuel + 1 =>
    if d.digits ≠ 0 ∧ d.digits % 10 = 0 then dropZeros ⟨d.digits / 10, d.exponent + 1⟩ fuel else d

/-- The decimal with the fewest digits that rounds to the double, the nearest of those. -/
def shortest (c : Cell) : Scientific := dropZeros (c.search 1 16) 20

end Cell

end Sentential.Decimal
