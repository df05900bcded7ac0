import EntityQuery.Error
import EntityQuery.Request.Parentheses
import EntityQuery.Text.Split

/-!
# Windows

A window is a part of a result: how many rows are left out, and how many are taken behind them. It
is written as a limit, which gives the two numbers, or as a page, which gives the number of a page,
from zero on, and the size of a page. A page that starts past the greatest number is refused.
-/

namespace EntityQuery

/-- A part of a result. -/
structure Window where
  offset : UInt64
  size : UInt64
  deriving DecidableEq

namespace Window

def page (number size : UInt64) : Except QueryError Window :=
  if number.toNat * size.toNat < UInt64.size then .ok ⟨number * size, size⟩
  else .error (.invalidArgument (.pageOverflow number size))

/-- Reads exactly two numbers with a comma between them. -/
def readPair (input : String) : Except QueryError (UInt64 × UInt64) :=
  let read (cs : List Char) := (Numeral.readUInt64 (Text.trimChars cs)).toOption
  match Text.splitChars ',' (unwrapParentheses input.toList) with
  | [first, second] =>
    match read first, read second with
    | some a, some b => .ok (a, b)
    | _, _ => .error (.invalidArgument (.notPair input))
  | _ => .error (.invalidArgument (.notPair input))

def readLimit (input : String) : Except QueryError Window :=
  (readPair input).map fun (offset, size) => ⟨offset, size⟩

def readPage (input : String) : Except QueryError Window := do
  let (number, size) ← readPair input
  page number size

end Window

end EntityQuery
