import EntityQuery.Calendar.Date

/-!
# Weeks

Two ways to name a date by a week. The weeks of the international standard run from Monday to
Sunday, and each belongs as a whole to the year that its Thursday lies in; a year has fifty-two or
fifty-three of them. The weeks of a calendar year start with the first Sunday or the first Monday
in it, and the days in front of that one make up the week zero.
-/

namespace EntityQuery

namespace Calendar

/-- How many days one day of the week lies behind another. -/
def daysSince (later earlier : Nat) : Nat := (later + 7 - earlier) % 7

/-- The number of the Monday of the first week of a year, the one that has the fourth of January. -/
def firstMonday (year : Int) : Int :=
  let fourth := daysBeforeYear year + 3 - epochDay
  fourth - weekdayOf fourth

end Calendar

open Calendar

/-- The day of the week that the weeks of a calendar year start with. -/
inductive WeekStart where
  | sunday
  | monday
  deriving DecidableEq

/-- The number of the day of the week, where Monday is zero. -/
def WeekStart.weekday : WeekStart → Nat
  | .sunday => 6
  | .monday => 0

namespace Date

/-- The standard week of a date, behind the year that the week belongs to. -/
def standardWeek (d : Date) : Int × Nat :=
  let (year, ordinal) := yearAndOrdinal (d.dayNumber - d.weekday + 3)
  (year, (ordinal - 1) / 7 + 1)

/-- The date of a day in a standard week, if the year has that week. -/
def ofStandardWeek? (year : Int) (week weekday : Nat) : Option Date :=
  let monday := firstMonday year + 7 * (Int.ofNat week - 1)
  if 1 ≤ week ∧ (yearAndOrdinal (monday + 3)).1 = year then ofDayNumber? (monday + weekday)
  else none

/-- The week of the calendar year that a date lies in. -/
def weekOfYear (start : WeekStart) (d : Date) : Nat :=
  (d.ordinal + 6 - daysSince d.weekday start.weekday) / 7

/-- The date of a day in a week of a calendar year, if it lies in that year. -/
def ofWeekOfYear? (start : WeekStart) (year : Int) (week weekday : Nat) : Option Date :=
  let first := weekdayOf (daysBeforeYear year - epochDay)
  let place := 1 + daysSince start.weekday first + 7 * week + daysSince weekday start.weekday
  if place ≤ 7 then none else ofOrdinal? year (place - 7)

end Date

end EntityQuery
