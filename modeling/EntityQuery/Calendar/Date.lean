/-!
# Calendar dates

Dates of the proleptic Gregorian calendar, with a year zero, between the years -262143 and 262142.
A date is its year, month and day; the number of its day, counted from 1970-01-01, carries it over
to arithmetic and back.
-/

namespace EntityQuery

namespace Calendar

/-- The years that dates reach from and to. -/
def firstYear : Int := -262143

def lastYear : Int := 262142

/-- Whether a year has a 29th of February. -/
def isLeapYear (year : Int) : Bool :=
  year % 4 = 0 && (year % 100 ≠ 0 || year % 400 = 0)

def monthLengths (year : Int) : List Nat :=
  [31, if isLeapYear year then 29 else 28, 31, 30, 31, 30, 31, 31, 30, 31, 30, 31]

/-- The number of days of a month; months count from one. -/
def daysInMonth (year : Int) (month : Nat) : Nat :=
  if month = 0 then 0 else (monthLengths year).getD (month - 1) 0

/-- The number of days from 0001-01-01 to the first day of a year. -/
def daysBeforeYear (year : Int) : Int :=
  365 * (year - 1) + (year - 1) / 4 - (year - 1) / 100 + (year - 1) / 400

/-- The number of days from 0001-01-01 to 1970-01-01. -/
def epochDay : Int := 719162

/-- The year that the day of a number lies in, and its place in the year, counted from one; the
numbers count from 1970-01-01. The days from 0001-01-01 are split into cycles of 400, 100, 4 years
and single years; the last day of a leap cycle stays with it. -/
def yearAndOrdinal (n : Int) : Int × Nat :=
  let days := n + epochDay
  let cycle := (days % 146097).toNat
  -- the fourth century is a day longer, and so is the fourth year below
  let century := min (cycle / 36524) 3
  let inCentury := cycle - century * 36524
  let leap := inCentury / 1461
  let inLeap := inCentury - leap * 1461
  let single := min (inLeap / 365) 3
  let year := 400 * (days / 146097) + (100 * century + 4 * leap + single : Nat) + 1
  (year, inLeap - single * 365 + 1)

/-- The day of the week of the day of a number, where Monday is zero. -/
def weekdayOf (n : Int) : Nat := ((n + 3) % 7).toNat

end Calendar

open Calendar

/-- A date of the calendar. -/
structure Date where
  year : Int
  month : Nat
  day : Nat
  firstYear_le : firstYear ≤ year
  le_lastYear : year ≤ lastYear
  day_pos : 1 ≤ day
  day_le : day ≤ daysInMonth year month
  deriving DecidableEq

namespace Date

/-- The date of a year, month and day, if there is one. -/
def ofYearMonthDay? (year : Int) (month day : Nat) : Option Date :=
  if h : firstYear ≤ year ∧ year ≤ lastYear ∧ 1 ≤ day ∧ day ≤ daysInMonth year month then
    some ⟨year, month, day, h.1, h.2.1, h.2.2.1, h.2.2.2⟩
  else none

/-- Finds the month of the given day among the months that are left of a year. -/
def monthOfDay (month : Nat) : List Nat → Nat → Option (Nat × Nat)
  | [], _ => none
  | length :: rest, day =>
    if day ≤ length then some (month, day) else monthOfDay (month + 1) rest (day - length)

/-- The date of a year and a day of the year, which counts from one. -/
def ofOrdinal? (year : Int) (ordinal : Nat) : Option Date :=
  (monthOfDay 1 (monthLengths year) ordinal).bind fun (month, day) =>
    ofYearMonthDay? year month day

/-- The day of the year, counted from one. -/
def ordinal (d : Date) : Nat := ((monthLengths d.year).take (d.month - 1)).foldl (· + ·) d.day

/-- The number of days from 1970-01-01 to the date. -/
def dayNumber (d : Date) : Int := daysBeforeYear d.year + d.ordinal - 1 - epochDay

/-- The date that many days after 1970-01-01, if it is in range. -/
def ofDayNumber? (n : Int) : Option Date := ofOrdinal? (yearAndOrdinal n).1 (yearAndOrdinal n).2

/-- The day of the week, where Monday is zero. -/
def weekday (d : Date) : Nat := weekdayOf d.dayNumber

/-- The quarter of the year, counted from one. -/
def quarter (d : Date) : Nat := (d.month - 1) / 3 + 1

/-- The order in time. -/
def compare (a b : Date) : Ordering :=
  (Ord.compare a.year b.year).then
    ((Ord.compare a.month b.month).then (Ord.compare a.day b.day))

end Date

end EntityQuery
