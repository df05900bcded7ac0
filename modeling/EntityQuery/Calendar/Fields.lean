import EntityQuery.Calendar.DateTime
import EntityQuery.Calendar.Week

/-!
# Fields of a date

What is read of a date and a time before it is known which date it is: years, months, weeks, hours
and the like, each in a slot of its own. A field may be given more than once and in more than one
way, as long as all agree. In the end the fields are put together to a date and a time.

What makes fields a date is again as `chrono` documents it. Fields that contradict each other or
their range, or that are too few, are an error, and so is a weekday that the date does not fall on.
A time needs an hour and a minute, and a missing second is zero; the second 60 stands for a leap
second. An offset is read, and apart from that ignored: the moment is the one that is written. A
lone year of two digits is of the twentieth century from 70 on, and else of the twenty-first. A
count of seconds can stand for a date, a time or both.
-/

namespace EntityQuery.Calendar

open Numeral

/-- What has been read of a date so far. Half days count from zero (before noon). The year of a
week is the one that a standard week belongs to. -/
structure Fields where
  year : Option Int
  century : Option Nat
  yearOfCentury : Option Nat
  weekYear : Option Int
  weekYearOfCentury : Option Nat
  quarter : Option Nat
  month : Option Nat
  week : Option Nat
  weekFromSunday : Option Nat
  weekFromMonday : Option Nat
  day : Option Nat
  ordinal : Option Nat
  weekday : Option Nat
  halfDay : Option Nat
  hourOfHalf : Option Nat
  minute : Option Nat
  second : Option Nat
  nanosecond : Option Nat
  epochSecond : Option Int
  offset : Option Int

/-- Nothing has been read. -/
def Fields.empty : Fields :=
  ⟨none, none, none, none, none, none, none, none, none, none, none, none, none, none, none, none,
    none, none, none, none⟩

/-- Why fields do not make up a date or a time. -/
inductive FieldFault where
  | missing
  | impossible

/-- A slot that takes a value, unless it holds a different one. -/
def agree {α : Type} [DecidableEq α] (slot : Option α) (value : α) : Option (Option α) :=
  match slot with
  | none => some (some value)
  | some old => if old = value then some (some value) else none

/-- Whether a slot is empty or holds the value. -/
def fits {α : Type} [DecidableEq α] (slot : Option α) (value : α) : Bool :=
  slot = none ∨ slot = some value

/-- A numeric field of a pattern. -/
inductive NumberField where
  | century
  | yearOfCentury
  | weekYearOfCentury
  | quarter
  | month
  | week
  | weekFromSunday
  | weekFromMonday
  | day
  | ordinal
  | hour
  | hourOfHalf
  | minute
  | second
  | nanosecond
  | weekdayFromMonday
  | weekdayFromSunday
  deriving DecidableEq

/-- The most digits that a field takes. -/
def NumberField.width : NumberField → Nat
  | .ordinal => 3
  | .nanosecond => 9
  | .quarter | .weekdayFromMonday | .weekdayFromSunday => 1
  | _ => 2

/-- The least and the greatest value of a field. -/
def NumberField.bounds : NumberField → Nat × Nat
  | .century | .yearOfCentury | .weekYearOfCentury => (0, 99)
  | .quarter => (1, 4)
  | .month => (1, 12)
  | .week => (1, 53)
  | .weekFromSunday | .weekFromMonday => (0, 53)
  | .day => (1, 31)
  | .ordinal => (1, 366)
  | .hour => (0, 23)
  | .hourOfHalf => (1, 12)
  | .minute => (0, 59)
  | .second => (0, 60)
  | .nanosecond => (0, 999999999)
  | .weekdayFromMonday => (1, 7)
  | .weekdayFromSunday => (0, 6)

namespace Fields

/-- Puts a year in its slot. -/
def withYear (f : Fields) (n : Int) : Option Fields :=
  (agree f.year n).map fun s => { f with year := s }

/-- Puts the year of a week in its slot. -/
def withWeekYear (f : Fields) (n : Int) : Option Fields :=
  (agree f.weekYear n).map fun s => { f with weekYear := s }

/-- Puts the half of the day and the hour in it into their slots. -/
def withHour (f : Fields) (n : Nat) : Option Fields := do
  let half ← agree f.halfDay (n / 12)
  let hour ← agree f.hourOfHalf (n % 12)
  return { f with halfDay := half, hourOfHalf := hour }

/-- Puts a count of seconds in its slot, if it is one of 64 bits. -/
def withCount (f : Fields) (n : Nat) : Option Fields :=
  if greatestInt64 < n then none
  else (agree f.epochSecond (Int.ofNat n)).map fun s => { f with epochSecond := s }

/-- Puts the minutes of an offset in their slot. -/
def withOffset (f : Fields) (n : Int) : Option Fields :=
  (agree f.offset n).map fun s => { f with offset := s }

/-- Puts the value of a numeric field into its slots, if it is in bounds. -/
def withNumber (f : Fields) (field : NumberField) (n : Nat) : Option Fields :=
  if n < field.bounds.1 ∨ field.bounds.2 < n then none
  else
    match field with
    | .century => (agree f.century n).map fun s => { f with century := s }
    | .yearOfCentury => (agree f.yearOfCentury n).map fun s => { f with yearOfCentury := s }
    | .weekYearOfCentury =>
      (agree f.weekYearOfCentury n).map fun s => { f with weekYearOfCentury := s }
    | .quarter => (agree f.quarter n).map fun s => { f with quarter := s }
    | .month => (agree f.month n).map fun s => { f with month := s }
    | .week => (agree f.week n).map fun s => { f with week := s }
    | .weekFromSunday => (agree f.weekFromSunday n).map fun s => { f with weekFromSunday := s }
    | .weekFromMonday => (agree f.weekFromMonday n).map fun s => { f with weekFromMonday := s }
    | .day => (agree f.day n).map fun s => { f with day := s }
    | .ordinal => (agree f.ordinal n).map fun s => { f with ordinal := s }
    | .hour => f.withHour n
    | .hourOfHalf => (agree f.hourOfHalf (n % 12)).map fun s => { f with hourOfHalf := s }
    | .minute => (agree f.minute n).map fun s => { f with minute := s }
    | .second => (agree f.second n).map fun s => { f with second := s }
    | .nanosecond => (agree f.nanosecond n).map fun s => { f with nanosecond := s }
    | .weekdayFromMonday => (agree f.weekday (n - 1)).map fun s => { f with weekday := s }
    | .weekdayFromSunday => (agree f.weekday ((n + 6) % 7)).map fun s => { f with weekday := s }

/-- A year, from the whole of it or from its two halves. A lone year of the century lies between
1970 and 2069; a century on its own is not enough. Only a year that is not negative has halves. -/
def resolveYear (year : Option Int) (century rest : Option Nat) :
    Except FieldFault (Option Int) :=
  match year, century, rest with
  | year, none, none => .ok year
  | some year, century, rest =>
    if 0 ≤ year ∧ fits century (year / 100).toNat ∧ fits rest (year % 100).toNat then
      .ok (some year)
    else .error .impossible
  | none, some century, some rest => .ok (some (Int.ofNat (century * 100 + rest)))
  | none, none, some rest => .ok (some (if rest < 70 then 2000 + rest else 1900 + rest))
  | none, some _, none => .error .missing

/-- Whether a year is the one that was read and has the halves that were read. -/
def yearFits (year : Option Int) (century rest : Option Nat) (n : Int) : Bool :=
  fits year n &&
    if 0 ≤ n then fits century (n / 100).toNat && fits rest (n % 100).toNat
    else century = none && rest = none

/-- Whether a date has all the fields that were read. -/
def describes (f : Fields) (d : Date) : Bool :=
  yearFits f.year f.century f.yearOfCentury d.year && fits f.quarter d.quarter &&
    fits f.month d.month && fits f.day d.day && fits f.ordinal d.ordinal &&
    fits f.weekday d.weekday && fits f.weekFromSunday (d.weekOfYear .sunday) &&
    fits f.weekFromMonday (d.weekOfYear .monday) &&
    yearFits f.weekYear none f.weekYearOfCentury d.standardWeek.1 && fits f.week d.standardWeek.2

/-- The ways to name a date, the first of which to have all its fields is taken: the month and the
day, the day of the year, a week of the year from Sunday or from Monday, and a standard week. A way
with all its fields may still name no date. -/
def ways (f : Fields) (year weekYear : Option Int) : List (Option (Option Date)) :=
  [do return Date.ofYearMonthDay? (← year) (← f.month) (← f.day),
   do return Date.ofOrdinal? (← year) (← f.ordinal),
   do return Date.ofWeekOfYear? .sunday (← year) (← f.weekFromSunday) (← f.weekday),
   do return Date.ofWeekOfYear? .monday (← year) (← f.weekFromMonday) (← f.weekday),
   do return Date.ofStandardWeek? (← weekYear) (← f.week) (← f.weekday)]

/-- The date. The fields that it was not made of have to agree with it. -/
def date (f : Fields) : Except FieldFault Date := do
  let year ← resolveYear f.year f.century f.yearOfCentury
  let weekYear ← resolveYear f.weekYear none f.weekYearOfCentury
  match (f.ways year weekYear).findSome? id with
  | none => throw .missing
  | some none => throw .impossible
  | some (some d) => if f.describes d then return d else throw .impossible

/-- The time of day. Seconds may be missing, and a fraction only together with them. -/
def time (f : Fields) : Except FieldFault Time :=
  match f.halfDay, f.hourOfHalf, f.minute with
  | some half, some hour, some minute =>
    match f.second, f.nanosecond with
    | none, some _ => .error .missing
    | second, nanosecond =>
      match Time.ofWritten? (half * 12 + hour) minute (second.getD 0) (nanosecond.getD 0) with
      | some t => .ok t
      | none => .error .impossible
  | _, _, _ => .error .missing

/-- Whether the count of seconds that was read, if any, is that of the moment. A leap second may
carry the count of either of its neighbours. -/
def hasCount (f : Fields) (t : DateTime) : Bool :=
  fits f.epochSecond t.epochSecond ||
    (1000000000 ≤ t.time.nanosecond && f.epochSecond = some (t.epochSecond + 1))

/-- Fills the fields in from a count of seconds. -/
def ofCount (f : Fields) (count : Int) : Option Fields := do
  -- a leap second may have the count of the second behind it
  let moment ← DateTime.ofEpochSecond? count 0
  let leap := f.second = some 60
  let moment ←
    if leap ∧ moment.time.second = 0 then DateTime.ofEpochSecond? (count - 1) 0 else some moment
  -- the second 60 is in its slot already, and has to follow a second 59
  let f ←
    if leap then (if moment.time.second = 59 then some f else none)
    else f.withNumber .second moment.time.second
  let f ← f.withYear moment.date.year
  let f ← f.withNumber .ordinal moment.date.ordinal
  let f ← f.withHour moment.time.hour
  f.withNumber .minute moment.time.minute

/-- The date and the time. When one of the two is incomplete a count of seconds makes up for it. -/
def dateTime? (f : Fields) : Option DateTime :=
  match f.date, f.time, f.epochSecond with
  | .ok date, .ok time, _ => if f.hasCount ⟨date, time⟩ then some ⟨date, time⟩ else none
  -- a count makes up for what is missing, not for what contradicts itself
  | .error .impossible, _, _ => none
  | _, .error .impossible, _ => none
  | _, _, none => none
  | _, _, some count =>
    match f.ofCount count with
    | none => none
    | some g =>
      match g.date, g.time with
      | .ok date, .ok time => some ⟨date, time⟩
      | _, _ => none

/-- The date alone, whatever else was read. -/
def date? (f : Fields) : Option Date :=
  match f.date with
  | .ok d => some d
  | .error _ => none

end Fields

end EntityQuery.Calendar
