import EntityQuery.Floating.Rounding
import EntityQuery.Floating.Shortest
import EntityQuery.Numeral.Integer

/-!
# Floating-point text

Reading a floating-point numeral, and the two ways of writing one: plain text, which is always
positional, and JSON, which marks every number as a fraction and turns to an exponent for large and
small ones. Both write the shortest digits that read back.
-/

namespace EntityQuery

namespace Numeral

/-- Why a text is no floating-point numeral. -/
inductive FloatingFault where
  | empty
  | invalid
  deriving DecidableEq

def FloatingFault.message : FloatingFault → String
  | .empty => "cannot parse float from empty string"
  | .invalid => "invalid float literal"

def isDigit (c : Char) : Bool := (digit? c).isSome

/-- The exponent part of a numeral, which may be missing. -/
def readExponent? : List Char → Option Int
  | [] => some 0
  | c :: cs =>
    if c = 'e' ∨ c = 'E' then
      let (negative, digits) :=
        match cs with
        | '-' :: r => (true, r)
        | '+' :: r => (false, r)
        | r => (false, r)
      if digits ≠ [] ∧ digits.all isDigit then
        some (if negative then -Int.ofNat (digitsValue digits) else Int.ofNat (digitsValue digits))
      else none
    else none

/-- An unsigned decimal: digits with at most one point among them, and an exponent. -/
def readDecimal? (cs : List Char) : Option (Nat × Int) :=
  let whole := cs.takeWhile isDigit
  let rest := cs.dropWhile isDigit
  let (fraction, rest) :=
    match rest with
    | '.' :: r => (r.takeWhile isDigit, r.dropWhile isDigit)
    | r => ([], r)
  if whole ++ fraction = [] then none
  else
    (readExponent? rest).map fun e => (digitsValue (whole ++ fraction), e - fraction.length)

end Numeral

namespace Floating

open Numeral

/-- Reads what follows the sign of a numeral. -/
def readUnsigned? (p : Precision) (negative : Bool) (cs : List Char) : Option Floating :=
  let word := cs.map Char.toLower
  if word = ['n', 'a', 'n'] then some .nan
  else if word = ['i', 'n', 'f'] ∨ word = ['i', 'n', 'f', 'i', 'n', 'i', 't', 'y'] then
    some (.infinity negative)
  else (readDecimal? cs).map fun (coefficient, exponent) =>
    ofDecimal p negative coefficient exponent

/-- Reads a floating-point numeral and rounds it once to the precision. -/
def read (p : Precision) (cs : List Char) : Except FloatingFault Floating :=
  match cs with
  | [] => .error .empty
  | '+' :: r => (readUnsigned? p false r).elim (.error .invalid) .ok
  | '-' :: r => (readUnsigned? p true r).elim (.error .invalid) .ok
  | r => (readUnsigned? p false r).elim (.error .invalid) .ok

/-- The digits with the decimal point in its place; `tail` stands for a missing fraction. -/
def positional (tail : String) (d : Decimal) : String :=
  let digits := d.digits
  if 0 ≤ d.exponent then
    String.ofList (digits ++ List.replicate d.exponent.toNat '0') ++ tail
  else
    let places := (-d.exponent).toNat
    if places < digits.length then
      String.ofList (digits.take (digits.length - places)) ++ "." ++
        String.ofList (digits.drop (digits.length - places))
    else "0." ++ String.ofList (List.replicate (places - digits.length) '0' ++ digits)

/-- The digits with a point behind the first and an exponent, whose sign is always written. -/
def scientific (d : Decimal) : String :=
  let fraction := d.digits.drop 1
  let mark := if d.magnitude < 0 then "e-" else "e+"
  String.ofList (d.digits.take 1) ++
    (if fraction = [] then "" else "." ++ String.ofList fraction) ++
    mark ++ padded 1 d.magnitude.natAbs

/-- The sign in front of a number. -/
def signText (negative : Bool) : String := if negative then "-" else ""

/-- The number as plain text: positional, without a fraction when it is whole. -/
def text (p : Precision) : Floating → String
  | .nan => "NaN"
  | .infinity s => signText s ++ "inf"
  | .finite s 0 _ => signText s ++ "0"
  | .finite s m e => signText s ++ positional "" (shortest p .up m e)

/-- The powers of ten that JSON text writes without an exponent. -/
def positionalRange : Precision → Int × Int
  | .single => (-6, 12)
  | .double => (-5, 15)

/-- The number as JSON text, where only finite numbers have one. -/
def jsonText (p : Precision) : Floating → String
  | .finite s 0 _ => signText s ++ "0.0"
  | .finite s m e =>
    let d := shortest p .even m e
    let (low, high) := positionalRange p
    signText s ++
      if low ≤ d.magnitude ∧ d.magnitude ≤ high then positional ".0" d else scientific d
  | _ => "null"

end Floating

end EntityQuery
