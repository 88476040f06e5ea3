/-!
# Whole doubles

A double is `± m · 2 ^ q` for whole numbers `m` and `q`, so it can be compared with a whole number
without rounding either of them.

## Main definitions

* `Decimal.wholeOfBits?`, `Decimal.whole?` — the whole number that a double equals, if there is one
-/

namespace Sentential.Decimal

/-- The whole number that the double with a bit pattern equals, if there is one. -/
def wholeOfBits? (bits : Nat) : Option Int :=
  let exponent := bits / Nat.pow 2 52 % Nat.pow 2 11
  let fraction := bits % Nat.pow 2 52
  let m := if exponent = 0 then fraction else fraction + Nat.pow 2 52
  -- The double is `m · 2 ^ (scale - 1075)`.
  let scale := max exponent 1
  let size :=
    if exponent = 2047 then none
    else if 1075 ≤ scale then some (m * Nat.pow 2 (scale - 1075))
    else if m % Nat.pow 2 (1075 - scale) = 0 then some (m / Nat.pow 2 (1075 - scale))
    else none
  size.map (fun n => if bits / Nat.pow 2 63 = 1 then -(n : Int) else n)

/-- The whole number that a double equals, if there is one. -/
def whole? (x : Float) : Option Int := wholeOfBits? x.toBits.toNat

end Sentential.Decimal
