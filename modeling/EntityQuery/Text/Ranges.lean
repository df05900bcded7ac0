/-!
# Code point ranges

A Unicode property is held as its list of inclusive code point ranges, in ascending order, and
membership walks the list until it meets a range that starts past the code point.
-/

namespace EntityQuery.Text

/-- Membership in an ascending list of inclusive ranges. -/
def inRanges : List (Nat × Nat) → Nat → Bool
  | [], _ => false
  | (lo, hi) :: rest, n => if n < lo then false else n ≤ hi || inRanges rest n

end EntityQuery.Text
