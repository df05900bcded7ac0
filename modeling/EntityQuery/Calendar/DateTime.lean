import EntityQuery.Calendar.Date
import EntityQuery.Numeral.Integer

/-!
# Dates with a time of day

A time of day to the nanosecond, without a zone. A leap second belongs to the second that it
follows, and may follow any: there the fraction goes on from one second up to two. It is written as
a second of its own, with the next number. Behind the second 59 this is the second 60; elsewhere the
text is that of the next second, which it is not.
-/

namespace EntityQuery

/-- A time of day. -/
structure Time where
  hour : Nat
  minute : Nat
  second : Nat
  /-- The fraction of the second; in a leap second it is one second or more. -/
  nanosecond : Nat
  hour_lt : hour < 24
  minute_lt : minute < 60
  second_lt : second < 60
  nanosecond_lt : nanosecond < 2000000000
  deriving DecidableEq

namespace Time

/-- The time with the given parts, if each is in its range. A leap second is made behind the second
59 only. -/
def ofParts? (hour minute second nanosecond : Nat) : Option Time :=
  if h : hour < 24 ∧ minute < 60 ∧ second < 60 ∧ nanosecond < 2000000000 ∧
      (nanosecond < 1000000000 ∨ second = 59) then
    some ⟨hour, minute, second, nanosecond, h.1, h.2.1, h.2.2.1, h.2.2.2.1⟩
  else none

/-- The time that is written with the given parts, where the second 60 is a leap second. -/
def ofWritten? (hour minute second nanosecond : Nat) : Option Time :=
  if second = 60 then ofParts? hour minute 59 (1000000000 + nanosecond)
  else ofParts? hour minute second nanosecond

/-- The second as it is written. -/
def writtenSecond (t : Time) : Nat := t.second + t.nanosecond / 1000000000

/-- The fraction as it is written. -/
def writtenNanosecond (t : Time) : Nat := t.nanosecond % 1000000000

/-- The start of the day. -/
def midnight : Time := ⟨0, 0, 0, 0, by decide, by decide, by decide, by decide⟩

/-- The order in time, a leap second behind the second that it follows. -/
def compare (a b : Time) : Ordering :=
  (Ord.compare a.hour b.hour).then
    ((Ord.compare a.minute b.minute).then
      ((Ord.compare a.second b.second).then (Ord.compare a.nanosecond b.nanosecond)))

end Time

/-- A date and a time of day. -/
structure DateTime where
  date : Date
  time : Time
  deriving DecidableEq

namespace DateTime

open Numeral

/-- The order in time. -/
def compare (a b : DateTime) : Ordering := (a.date.compare b.date).then (a.time.compare b.time)

/-- The start of a day. -/
def startOf (d : Date) : DateTime := ⟨d, .midnight⟩

/-- The number of seconds from 1970-01-01T00:00:00. A leap second counts as the one before it. -/
def epochSecond (t : DateTime) : Int :=
  t.date.dayNumber * 86400 + (t.time.hour * 3600 + t.time.minute * 60 + t.time.second : Nat)

/-- The moment that many seconds and nanoseconds after 1970-01-01T00:00:00, if it is in range. -/
def ofEpochSecond? (seconds : Int) (nanosecond : Nat) : Option DateTime := do
  let date ← Date.ofDayNumber? (seconds / 86400)
  let second := (seconds % 86400).toNat
  let time ← Time.ofParts? (second / 3600) (second / 60 % 60) (second % 60) nanosecond
  return ⟨date, time⟩

/-- The moment that many milliseconds after 1970-01-01T00:00:00, if it is in range. -/
def ofEpochMilli? (millis : Int) : Option DateTime :=
  ofEpochSecond? (millis / 1000) ((millis % 1000).toNat * 1000000)

/-- The moment moved forward by minutes. The second and its fraction stay, a leap second too. -/
def addMinutes? (t : DateTime) (minutes : Int) : Option DateTime := do
  let total := (t.time.hour * 60 + t.time.minute : Nat) + minutes
  let date ← Date.ofDayNumber? (t.date.dayNumber + total / 1440)
  let minute := (total % 1440).toNat
  return ⟨date, { t.time with
    hour := minute / 60
    minute := minute % 60
    hour_lt := by omega
    minute_lt := by omega }⟩

/-- A year in four digits, and with a sign when four digits cannot hold it. -/
def yearText (year : Int) : String :=
  if 0 ≤ year ∧ year ≤ 9999 then padded 4 year.natAbs
  else (if year < 0 then "-" else "+") ++ padded 4 year.natAbs

/-- The moment down to the second, as in `2020-02-29T23:59:59`. -/
def secondsText (t : DateTime) : String :=
  yearText t.date.year ++ "-" ++ padded 2 t.date.month ++ "-" ++ padded 2 t.date.day ++ "T" ++
    padded 2 t.time.hour ++ ":" ++ padded 2 t.time.minute ++ ":" ++
    padded 2 t.time.writtenSecond

/-- The moment down to the millisecond, what is finer cut off. -/
def millisText (t : DateTime) : String :=
  t.secondsText ++ "." ++ padded 3 (t.time.writtenNanosecond / 1000000)

/-- The moment down to the nanosecond. -/
def nanosText (t : DateTime) : String :=
  t.secondsText ++ "." ++ padded 9 t.time.writtenNanosecond

/-- The moment with the fewest groups of three fraction digits that lose nothing. -/
def exactText (t : DateTime) : String :=
  let n := t.time.writtenNanosecond
  if n = 0 then t.secondsText
  else if n % 1000000 = 0 then t.millisText
  else if n % 1000 = 0 then t.secondsText ++ "." ++ padded 6 (n / 1000)
  else t.nanosText

end DateTime

end EntityQuery
