import EntityQuery.Calendar.Reading

/-!
# Date literals

How a written date becomes a moment. A pattern that is given is the only layout; without one a few
common layouts are tried in order, and then the timestamp format of the Internet, which is carried
over to universal time. In both cases an integer that nothing else takes is the count of
milliseconds since 1970.
-/

namespace EntityQuery.Calendar

open Numeral

def readDateTime? (cs : List Char) (pattern : String) : Option DateTime :=
  (readPattern pattern cs).bind Fields.dateTime?

/-- Reads a date by a pattern, and takes the start of that day. -/
def readDay? (cs : List Char) (pattern : String) : Option DateTime :=
  ((readPattern pattern cs).bind Fields.date?).map DateTime.startOf

def dateTimeLayouts : List String :=
  ["%Y-%m-%dT%H:%M:%S%.f", "%Y-%m-%d %H:%M:%S%.f", "%Y-%m-%dT%H:%M", "%Y-%m-%d %H:%M"]

def dateLayouts : List String := ["%Y-%m-%d", "%Y/%m/%d", "%d.%m.%Y"]

/-- What is behind a character, if the text starts with it. -/
def afterChar? (c : Char) : List Char → Option (List Char)
  | d :: rest => if d = c then some rest else none
  | [] => none

/-- Reads a timestamp with fields of fixed width and a zone, and carries it to universal time. -/
def readInternet? (cs : List Char) : Option DateTime := do
  let (year, cs) ← readFixed 4 cs
  let cs ← afterChar? '-' cs
  let (month, cs) ← readFixed 2 cs
  let cs ← afterChar? '-' cs
  let (day, cs) ← readFixed 2 cs
  let cs ←
    match cs with
    | 'T' :: rest | 't' :: rest | ' ' :: rest => some rest
    | _ => none
  let (hour, cs) ← readFixed 2 cs
  let cs ← afterChar? ':' cs
  let (minute, cs) ← readFixed 2 cs
  let cs ← afterChar? ':' cs
  let (second, cs) ← readFixed 2 cs
  let (nanosecond, cs) ←
    match cs with
    | '.' :: rest => readNanoseconds rest
    | rest => some (0, rest)
  let (offset, cs) ← readOffsetOrZ (afterChar? ':') false cs
  let date ← Date.ofYearMonthDay? (Int.ofNat year) month day
  let time ← Time.ofWritten? hour minute second nanosecond
  -- no zone is a whole day off
  if cs = [] ∧ offset.natAbs < 1440 then (DateTime.mk date time).addMinutes? (-offset) else none

/-- A count of milliseconds since 1970. -/
def readMillis? (cs : List Char) : Option DateTime :=
  match readInt64 cs with
  | .ok n => DateTime.ofEpochMilli? n
  | .error _ => none

/-- The moment that a literal denotes. -/
def readLiteral? (pattern : Option String) (literal : String) : Option DateTime :=
  let cs := literal.toList
  let laidOut :=
    match pattern with
    | some pattern => readDateTime? cs pattern <|> readDay? cs pattern
    | none =>
      dateTimeLayouts.findSome? (readDateTime? cs) <|> dateLayouts.findSome? (readDay? cs) <|>
        readInternet? cs
  laidOut <|> readMillis? cs

end EntityQuery.Calendar
