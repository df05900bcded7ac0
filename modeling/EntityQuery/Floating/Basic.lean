/-!
# Binary floating-point numbers

A floating-point number is held exactly: it is not a number, an infinity, or a signed whole number
of powers of two. What a precision leaves out is decided when a number is rounded to it
(`EntityQuery.Floating.Rounding`); comparing and inspecting one is integer arithmetic.
-/

namespace EntityQuery

/-- The two precisions of a floating-point number. -/
inductive Precision where
  | single
  | double
  deriving DecidableEq

namespace Precision

/-- The number of bits of a significand. -/
def bits : Precision → Nat
  | .single => 24
  | .double => 53

/-- The exponent of the least positive number. -/
def minExponent : Precision → Int
  | .single => -149
  | .double => -1074

/-- The greatest exponent of a significand of full length. -/
def maxExponent : Precision → Int
  | .single => 104
  | .double => 971

def name : Precision → String
  | .single => "f32"
  | .double => "f64"

end Precision

/-- A floating-point number; a finite one is `significand * 2 ^ exponent` with a sign. -/
inductive Floating where
  | nan
  | infinity (negative : Bool)
  | finite (negative : Bool) (significand : Nat) (exponent : Int)
  deriving DecidableEq

namespace Floating

/-- The sign as a factor. -/
def signed (negative : Bool) (n : Nat) : Int := if negative then -Int.ofNat n else Int.ofNat n

/-- How many times `2 ^ unit` goes into a finite number, for a unit not above its exponent. -/
def inUnits (unit : Int) (negative : Bool) (significand : Nat) (exponent : Int) : Int :=
  signed negative (significand * Nat.pow 2 (exponent - unit).toNat)

/-- The order of two numbers; the two zeros are equal, and not-a-number has no place in it. -/
def compare : Floating → Floating → Option Ordering
  | .nan, _ => none
  | _, .nan => none
  | .infinity true, .infinity true => some .eq
  | .infinity false, .infinity false => some .eq
  | .infinity true, _ => some .lt
  | _, .infinity true => some .gt
  | .infinity false, _ => some .gt
  | _, .infinity false => some .lt
  | .finite s m e, .finite t n f =>
    some (Ord.compare (inUnits (min e f) s m e) (inUnits (min e f) t n f))

def isFinite : Floating → Bool
  | .finite .. => true
  | _ => false

/-- The integer that the number is, if it is one. -/
def toInt? : Floating → Option Int
  | .finite s m e =>
    if 0 ≤ e then some (signed s (m * Nat.pow 2 e.toNat))
    else if m % Nat.pow 2 (-e).toNat = 0 then some (signed s (m / Nat.pow 2 (-e).toNat))
    else none
  | _ => none

end Floating

end EntityQuery
