import EntityQuery.Floating.Basic

/-!
# Rounding to a precision

`nearest` rounds a ratio of natural numbers to the nearest number of a precision, a tie to the even
significand. Integers, decimals and numbers of another precision are all rounded by it, once.
-/

namespace EntityQuery

/-- The quotient rounded to the nearest natural number, a half to the even neighbour. -/
def roundToEven (num den : Nat) : Nat :=
  let q := num / den
  let twice := 2 * (num % den)
  if twice < den then q
  else if den < twice then q + 1
  else if q % 2 = 0 then q
  else q + 1

namespace Floating

/-- The ratio `num / den` as a ratio of multiples of `2 ^ exponent`. -/
def scaled (num den : Nat) (exponent : Int) : Nat × Nat :=
  if 0 ≤ exponent then (num, den * Nat.pow 2 exponent.toNat)
  else (num * Nat.pow 2 (-exponent).toNat, den)

/-- A rounded significand in its format: a carry into one bit more moves the exponent, and an
exponent past the greatest one is an infinity. -/
def fit (p : Precision) (negative : Bool) (significand : Nat) (exponent : Int) : Floating :=
  let (m, e) :=
    if significand = Nat.pow 2 p.bits then (Nat.pow 2 (p.bits - 1), exponent + 1)
    else (significand, exponent)
  if p.maxExponent < e then .infinity negative else .finite negative m e

/-- The number of precision `p` that is nearest to `num / den`. -/
def nearest (p : Precision) (negative : Bool) (num den : Nat) : Floating :=
  if num = 0 then .finite negative 0 p.minExponent
  else
    let exponent := max p.minExponent (Int.ofNat num.log2 - Int.ofNat den.log2 - p.bits)
    let (a, b) := scaled num den exponent
    -- the logarithms leave two exponents; with the lower one there may be one bit too many
    if a < b * Nat.pow 2 p.bits then fit p negative (roundToEven a b) exponent
    else
      let (a, b) := scaled num den (exponent + 1)
      fit p negative (roundToEven a b) (exponent + 1)

/-- The nearest number to an integer. -/
def ofInt (p : Precision) (n : Int) : Floating := nearest p (n < 0) n.natAbs 1

/-- The number at another precision. -/
def toPrecision (p : Precision) : Floating → Floating
  | .finite s m e =>
    if 0 ≤ e then nearest p s (m * Nat.pow 2 e.toNat) 1 else nearest p s m (Nat.pow 2 (-e).toNat)
  | x => x

/-- No number of either precision has this many digits in front of its decimal point. -/
def decimalCeiling : Int := 400

/-- The nearest number to `coefficient * 10 ^ exponent`. The digits of the coefficient bound the
size of the number, so one that is far outside of the format is settled without its power. -/
def ofDecimal (p : Precision) (negative : Bool) (coefficient : Nat) (exponent : Int) : Floating :=
  let magnitude := Int.ofNat (Nat.toDigits 10 coefficient).length + exponent
  if coefficient = 0 ∨ magnitude < -decimalCeiling then .finite negative 0 p.minExponent
  else if decimalCeiling < magnitude then .infinity negative
  else if 0 ≤ exponent then nearest p negative (coefficient * Nat.pow 10 exponent.toNat) 1
  else nearest p negative coefficient (Nat.pow 10 (-exponent).toNat)

/-- The greatest finite number of a precision. -/
def greatest (p : Precision) : Floating := .finite false (Nat.pow 2 p.bits - 1) p.maxExponent

end Floating

end EntityQuery
