/-!
# Written integers

Reading a decimal integer of a bounded size. A numeral is an optional sign and at least one ASCII
digit; a plus sign is allowed everywhere, a minus sign only where negative numbers are. The digits
are taken from the left, and the first of them that is no digit or leaves the bounds decides what
is wrong with the numeral.
-/

namespace EntityQuery.Numeral

/-- Why a text is not the numeral of an integer in bounds. -/
inductive IntegerFault where
  | empty
  | invalidDigit
  | tooLarge
  | tooSmall
  deriving DecidableEq

def IntegerFault.message : IntegerFault → String
  | .empty => "cannot parse integer from empty string"
  | .invalidDigit => "invalid digit found in string"
  | .tooLarge => "number too large to fit in target type"
  | .tooSmall => "number too small to fit in target type"

/-- The value of an ASCII digit. -/
def digit? (c : Char) : Option Nat :=
  if '0' ≤ c ∧ c ≤ '9' then some (c.toNat - '0'.toNat) else none

/-- Appends decimal digits to `value`, as long as the number stays within `limit`. -/
def appendDigits (limit : Nat) (beyond : IntegerFault) (value : Nat) :
    List Char → Except IntegerFault Nat
  | [] => .ok value
  | c :: cs =>
    match digit? c with
    | none => .error .invalidDigit
    | some d =>
      if value * 10 + d ≤ limit then appendDigits limit beyond (value * 10 + d) cs
      else .error beyond

/-- The digits behind a sign, of which there is at least one. -/
def readMagnitude (limit : Nat) (beyond : IntegerFault) : List Char → Except IntegerFault Nat
  | [] => .error .invalidDigit
  | cs => appendDigits limit beyond 0 cs

/-- The greatest signed integer of 64 bits. -/
def greatestInt64 : Nat := 9223372036854775807

/-- Reads a signed integer of 64 bits. -/
def readInt64 : List Char → Except IntegerFault Int
  | [] => .error .empty
  | '+' :: cs => (readMagnitude greatestInt64 .tooLarge cs).map Int.ofNat
  | '-' :: cs => (readMagnitude (greatestInt64 + 1) .tooSmall cs).map fun n => -Int.ofNat n
  | cs => (readMagnitude greatestInt64 .tooLarge cs).map Int.ofNat

/-- Reads an unsigned integer of 64 bits. -/
def readUInt64 : List Char → Except IntegerFault UInt64
  | [] => .error .empty
  | '+' :: cs => (readMagnitude (UInt64.size - 1) .tooLarge cs).map UInt64.ofNat
  | cs => (readMagnitude (UInt64.size - 1) .tooLarge cs).map UInt64.ofNat

/-- The number that a run of digits denotes; other characters count as nothing. -/
def digitsValue (cs : List Char) : Nat :=
  cs.foldl (fun n c => n * 10 + (digit? c).getD 0) 0

/-- A number in decimal, with zeros in front up to the given width. -/
def padded (width n : Nat) : String :=
  let digits := Nat.toDigits 10 n
  String.ofList (List.replicate (width - digits.length) '0' ++ digits)

/-- An integer in decimal, with a minus sign if it is negative. -/
def decimal (n : Int) : String :=
  if n < 0 then "-" ++ padded 1 n.natAbs else padded 1 n.natAbs

end EntityQuery.Numeral
