/-!
# Integers of a width

The four widths of a signed integer, and the integers that fit one of them.
-/

namespace EntityQuery

/-- The width of a signed two's complement integer. -/
inductive IntWidth where
  | w8
  | w16
  | w32
  | w64
  deriving DecidableEq

namespace IntWidth

def name : IntWidth → String
  | .w8 => "i8"
  | .w16 => "i16"
  | .w32 => "i32"
  | .w64 => "i64"

/-- The least integer of the width. -/
def lowest : IntWidth → Int
  | .w8 => -128
  | .w16 => -32768
  | .w32 => -2147483648
  | .w64 => -9223372036854775808

/-- The greatest integer of the width. -/
def highest : IntWidth → Int
  | .w8 => 127
  | .w16 => 32767
  | .w32 => 2147483647
  | .w64 => 9223372036854775807

end IntWidth

/-- An integer together with a width that it fits. -/
structure SizedInt where
  width : IntWidth
  toInt : Int
  lowest_le : width.lowest ≤ toInt
  le_highest : toInt ≤ width.highest
  deriving DecidableEq

/-- The integer at the given width, if it fits. -/
def SizedInt.ofInt? (width : IntWidth) (n : Int) : Option SizedInt :=
  if h : width.lowest ≤ n ∧ n ≤ width.highest then some ⟨width, n, h.1, h.2⟩ else none

end EntityQuery
