import EntityQuery.Floating.Basic

/-!
# Shortest decimals

The decimal with the fewest digits that reads back to a given finite number, and the nearest one to
it if several have that few. The reals that round to `m * 2 ^ q` form an interval around it, whose
ends belong to it when `m` is even. On the grid of the decimals with a given number of digits only
the two neighbours of the number have to be looked at: if any point of the grid lies in the
interval, one of these does.
-/

namespace EntityQuery

/-- Which of two equally near decimals is taken. -/
inductive DecimalTie where
  | even
  | up
  deriving DecidableEq

/-- A positive decimal `coefficient * 10 ^ exponent`. -/
structure Decimal where
  coefficient : Nat
  exponent : Int
  deriving DecidableEq

namespace Decimal

def digits (d : Decimal) : List Char := Nat.toDigits 10 d.coefficient

/-- The power of ten of the first digit. -/
def magnitude (d : Decimal) : Int := d.exponent + d.digits.length - 1

end Decimal

namespace Floating

/-- A number and the interval of the reals that round to it, over a common denominator. -/
structure Interval where
  value : Nat
  low : Nat
  high : Nat
  den : Nat
  closed : Bool

/-- The rounding interval of `m * 2 ^ q`. Below a power of two the spacing halves, save at the
least exponent. -/
def interval (p : Precision) (m : Nat) (q : Int) : Interval :=
  let narrow := m = Nat.pow 2 (p.bits - 1) ∧ p.minExponent < q
  let up := Nat.pow 2 (q - 2).toNat
  { value := 4 * m * up
    low := (if narrow then 4 * m - 1 else 4 * m - 2) * up
    high := (4 * m + 2) * up
    den := Nat.pow 2 (2 - q).toNat
    closed := m % 2 = 0 }

namespace Interval

/-- The power of ten just not above the value. -/
def decade (i : Interval) : Int :=
  let length (n : Nat) := Int.ofNat (Nat.toDigits 10 n).length
  let guess := length i.value - length i.den
  let above := i.den * Nat.pow 10 guess.toNat ≤ i.value * Nat.pow 10 (-guess).toNat
  if above then guess else guess - 1

/-- Whether `n * 10 ^ k` lies in the interval. -/
def contains (i : Interval) (n : Nat) (k : Int) : Bool :=
  let point := n * Nat.pow 10 k.toNat * i.den
  let shift := Nat.pow 10 (-k).toNat
  if i.closed then i.low * shift ≤ point && point ≤ i.high * shift
  else i.low * shift < point && point < i.high * shift

/-- The nearest point of the grid of multiples of `10 ^ k` that lies in the interval. -/
def onGrid? (i : Interval) (tie : DecimalTie) (k : Int) : Option Nat :=
  let num := i.value * Nat.pow 10 (-k).toNat
  let den := i.den * Nat.pow 10 k.toNat
  let below := num / den
  let twice := 2 * (num % den)
  match i.contains below k, i.contains (below + 1) k with
  -- the interval holds both neighbours of the value, so the nearer one is taken
  | true, true =>
    if twice < den then some below
    else if den < twice then some (below + 1)
    else if tie = .even ∧ below % 2 = 0 then some below
    else some (below + 1)
  | true, false => some below
  | false, true => some (below + 1)
  | false, false => none

/-- The first grid with a point in the interval, from `digits` digits on. -/
def search (i : Interval) (tie : DecimalTie) (decade : Int) (digits : Nat) : Nat → Decimal
  | 0 => ⟨i.value / i.den, 0⟩
  | tries + 1 =>
    let k := decade - digits + 1
    match i.onGrid? tie k with
    | some n => if n = Nat.pow 10 digits then ⟨1, k + digits⟩ else ⟨n, k⟩
    | none => i.search tie decade (digits + 1) tries

end Interval

/-- The shortest decimal of `m * 2 ^ q`, for `m` not zero. Seventeen digits tell any two numbers of
either precision apart. -/
def shortest (p : Precision) (tie : DecimalTie) (m : Nat) (q : Int) : Decimal :=
  let i := interval p m q
  i.search tie i.decade 1 17

end Floating

end EntityQuery
