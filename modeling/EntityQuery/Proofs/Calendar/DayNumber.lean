import EntityQuery.Calendar.Date
import Mathlib.Algebra.Ring.Nat

/-!
# Numbers of days

The dates of the calendar and the numbers of days from 1970-01-01 are two names of the same thing:
a date is found from its number and from no other (`Date.ofDayNumber?_eq_some_iff`), and every
number between that of the first date and that of the last one is the number of a date
(`Date.exists_dayNumber_iff`). The year is found by splitting the days into cycles of years, and the
month by walking along the lengths of the months. That the numbers count the days of the calendar
is said without either: they go up by one from a date to the next (`Date.dayNumber_nextDay`).
-/

namespace EntityQuery

namespace Calendar

variable {n n' year year' : Int} {ordinal ordinal' month day : Nat}

/-! ## Years -/

/-- The number of days of a year. -/
def daysInYear (year : Int) : Nat := if isLeapYear year then 366 else 365

/-- The rule of the Gregorian calendar: every fourth year, of the hundredth ones only every fourth
again. -/
theorem isLeapYear_iff :
    isLeapYear year = true ↔ year % 4 = 0 ∧ (year % 100 ≠ 0 ∨ year % 400 = 0) := by
  simp [isLeapYear]

/-- A year starts where the one before it ends. -/
theorem daysBeforeYear_add_one (year : Int) :
    daysBeforeYear (year + 1) = daysBeforeYear year + daysInYear year := by
  rw [daysBeforeYear, daysBeforeYear, daysInYear]
  split
  · next leap =>
    have rule := isLeapYear_iff.mp leap
    omega
  · next common =>
    have rule := mt isLeapYear_iff.mpr common
    omega

/-- Later years start later. Together with `LiesIn` this leaves one year for each day. -/
theorem daysBeforeYear_mono (h : year ≤ year') : daysBeforeYear year ≤ daysBeforeYear year' := by
  rw [daysBeforeYear, daysBeforeYear]
  omega

/-- The day of a number has a place in a year, counted from one. -/
structure LiesIn (n year : Int) (ordinal : Nat) : Prop where
  pos : 1 ≤ ordinal
  le : ordinal ≤ daysInYear year
  number : daysBeforeYear year + ordinal - 1 - epochDay = n

/-- The days of a later year have greater numbers. -/
theorem LiesIn.year_mono (h : LiesIn n year ordinal) (h' : LiesIn n' year' ordinal')
    (le : n ≤ n') : year ≤ year' := by
  refine Int.not_lt.mp fun earlier => ?_
  have ends := daysBeforeYear_mono (Int.add_one_le_of_lt earlier)
  rw [daysBeforeYear_add_one] at ends
  have starts := h.pos
  have within := h'.le
  have number := h.number
  have number' := h'.number
  omega

/-! A year is counted in cycles of 400, 100 and 4 years and in single years. Only the last year of
four is a leap year, and of the last four of a century only in the last century. -/

section Cycles

variable (cycle : Int) {century leap single : Nat} (hc : century ≤ 3) (hl : leap ≤ 24)
  (hs : single ≤ 3)

include hc hl hs

/-- The days in front of a year, counted by whole cycles of 400, 100, 4 and single years. The
remainders of a division by their lengths are these counts. -/
theorem daysBeforeYear_cycles :
    daysBeforeYear (400 * cycle + (100 * century + 4 * leap + single : Nat) + 1) =
      146097 * cycle + (36524 * century + 1461 * leap + 365 * single : Nat) := by
  rw [daysBeforeYear]
  omega

/-- A year is a leap year when it is the last of its four, unless these are the last four of a
century that is not the last one of its cycle. -/
theorem isLeapYear_cycles :
    isLeapYear (400 * cycle + (100 * century + 4 * leap + single : Nat) + 1) = true ↔
      single = 3 ∧ (leap = 24 → century = 3) := by
  rw [isLeapYear_iff]
  omega

end Cycles

/-- The year that is found for a number is the one that its day lies in. -/
theorem liesIn_yearAndOrdinal (n : Int) :
    LiesIn n (yearAndOrdinal n).1 (yearAndOrdinal n).2 := by
  dsimp only [yearAndOrdinal]
  generalize hcycle : ((n + epochDay) % 146097).toNat = inCycle
  generalize hcentury : min (inCycle / 36524) 3 = century
  generalize hinCentury : inCycle - century * 36524 = inCentury
  generalize hleap : inCentury / 1461 = leap
  generalize hinLeap : inCentury - leap * 1461 = inLeap
  generalize hsingle : min (inLeap / 365) 3 = single
  have hc : century ≤ 3 := by omega
  have hl : leap ≤ 24 := by omega
  have hs : single ≤ 3 := by omega
  -- the days in front of the year, and those of the year up to the day
  have split :
      inCycle = 36524 * century + 1461 * leap + 365 * single + (inLeap - single * 365) := by
    omega
  constructor
  · exact Nat.le_add_left 1 _
  · rw [daysInYear]
    simp only [isLeapYear_cycles _ hc hl hs]
    split <;> omega
  · rw [daysBeforeYear_cycles _ hc hl hs]
    omega

/-- The division by cycles finds the year and the day of a day number, and nothing else does:
`LiesIn` can be used in its place. -/
theorem yearAndOrdinal_eq_iff : yearAndOrdinal n = (year, ordinal) ↔ LiesIn n year ordinal := by
  have found := liesIn_yearAndOrdinal n
  constructor
  · intro same
    rw [same] at found
    exact found
  · intro h
    have years : (yearAndOrdinal n).1 = year :=
      Int.le_antisymm (found.year_mono h (Int.le_refl n)) (h.year_mono found (Int.le_refl n))
    have number := found.number.trans h.number.symm
    rw [years] at number
    have ordinals : (yearAndOrdinal n).2 = ordinal := by omega
    exact Prod.ext years ordinals

/-! ## Months -/

/-- The months of a year are as long as the year. -/
theorem sum_monthLengths (year : Int) : (monthLengths year).sum = daysInYear year := by
  rw [monthLengths, daysInYear]
  split <;> rfl

/-- A day is in a month when the table of months has such a month, and it is that long. -/
theorem le_daysInMonth_iff (pos : 1 ≤ day) :
    day ≤ daysInMonth year month ↔
      1 ≤ month ∧ ∃ length, (monthLengths year)[month - 1]? = some length ∧ day ≤ length := by
  rw [daysInMonth]
  split
  · next zero =>
    refine iff_of_false (Nat.not_le_of_lt pos) fun named => ?_
    exact absurd named.1 (zero ▸ Nat.not_succ_le_zero 0)
  · next named =>
    rw [and_iff_right (Nat.one_le_iff_ne_zero.mpr named), List.getD_eq_getElem?_getD]
    cases (monthLengths year)[month - 1]? with
    | none => exact iff_of_false (Nat.not_le_of_lt pos) (by simp)
    | some length => simp

/-- The days up to the end of a month are those in front of it and its own. -/
theorem sum_take_month (year : Int) (named : 1 ≤ month) :
    ((monthLengths year).take month).sum =
      ((monthLengths year).take (month - 1)).sum + daysInMonth year month := by
  obtain ⟨k, rfl⟩ := Nat.exists_eq_add_of_le' named
  rw [daysInMonth, if_neg (Nat.succ_ne_zero k), Nat.add_sub_cancel, List.take_add_one,
    List.sum_append, List.getD_eq_getElem?_getD]
  cases (monthLengths year)[k]? <;> rfl

end Calendar

namespace Date

open Calendar

variable {d e : Date} {n year : Int} {ordinal month day start : Nat} {lengths : List Nat}

/-- The month of a day is the first one that ends with the day or behind it. -/
theorem monthOfDay_eq_some_iff (pos : 1 ≤ ordinal) :
    monthOfDay start lengths ordinal = some (month, day) ↔
      1 ≤ day ∧ ∃ i length, lengths[i]? = some length ∧ day ≤ length ∧ start + i = month ∧
        (lengths.take i).sum + day = ordinal := by
  induction lengths generalizing start ordinal with
  | nil => simp [monthOfDay]
  | cons first rest ih =>
    rw [monthOfDay]
    split
    · next within =>
      constructor
      · rintro ⟨⟩
        exact ⟨pos, 0, first, rfl, within, rfl, Nat.zero_add _⟩
      · rintro ⟨least, i, length, found, fits, rfl, total⟩
        cases i with
        | zero =>
          rw [List.take_zero, List.sum_nil, Nat.zero_add] at total
          rw [total]
          rfl
        -- a later month starts behind the whole of this one
        | succ i =>
          rw [List.take_succ_cons, List.sum_cons] at total
          omega
    · next beyond =>
      rw [ih (by omega)]
      refine and_congr_right fun least => ?_
      constructor
      · rintro ⟨i, length, found, fits, rfl, total⟩
        refine ⟨i + 1, length, found, fits, by omega, ?_⟩
        rw [List.take_succ_cons, List.sum_cons]
        omega
      · rintro ⟨i, length, found, fits, rfl, total⟩
        cases i with
        | zero =>
          cases found
          rw [List.take_zero, List.sum_nil] at total
          omega
        | succ i =>
          rw [List.take_succ_cons, List.sum_cons] at total
          exact ⟨i, length, found, fits, by omega, by omega⟩

/-- Every day of a year is in some month, for the months leave no gap. -/
theorem exists_monthOfDay (pos : 1 ≤ ordinal) (le : ordinal ≤ lengths.sum) :
    ∃ month day, monthOfDay start lengths ordinal = some (month, day) := by
  induction lengths generalizing start ordinal with
  | nil => cases Nat.le_trans pos le
  | cons first rest ih =>
    rw [monthOfDay]
    split
    · exact ⟨_, _, rfl⟩
    · rw [List.sum_cons] at le
      exact ih (by omega) (by omega)

/-- Going through the months of a year finds the month and the day whose count from the start of the
year was asked for. -/
theorem monthOfDay_monthLengths (pos : 1 ≤ ordinal) :
    monthOfDay 1 (monthLengths year) ordinal = some (month, day) ↔
      1 ≤ day ∧ day ≤ daysInMonth year month ∧
        ((monthLengths year).take (month - 1)).sum + day = ordinal := by
  rw [monthOfDay_eq_some_iff pos]
  refine and_congr_right fun least => ?_
  rw [le_daysInMonth_iff least]
  constructor
  · rintro ⟨i, length, found, fits, rfl, total⟩
    rw [Nat.add_sub_cancel_left]
    exact ⟨⟨Nat.le_add_right 1 i, length, found, fits⟩, total⟩
  · rintro ⟨⟨named, length, found, fits⟩, total⟩
    exact ⟨month - 1, length, found, fits, Nat.add_sub_of_le named, total⟩

/-! ## Days of the year -/

/-- A date is made of exactly its own year, month and day; others make none or another one. -/
theorem ofYearMonthDay?_eq_some_iff :
    ofYearMonthDay? year month day = some d ↔ d.year = year ∧ d.month = month ∧ d.day = day := by
  rw [ofYearMonthDay?]
  constructor
  · intro made
    split at made
    · cases made
      exact ⟨rfl, rfl, rfl⟩
    · cases made
  · rintro ⟨rfl, rfl, rfl⟩
    exact dif_pos ⟨d.firstYear_le, d.le_lastYear, d.day_pos, d.day_le⟩

theorem month_pos (d : Date) : 1 ≤ d.month := ((le_daysInMonth_iff d.day_pos).mp d.day_le).1

/-- The day of the year is the days of the earlier months and the day of the month together. -/
theorem ordinal_eq (d : Date) :
    d.ordinal = ((monthLengths d.year).take (d.month - 1)).sum + d.day := by
  rw [ordinal, List.sum_eq_foldl, Nat.add_comm]
  change List.foldl (· + ·) (d.day + 0) _ = _
  exact List.foldl_assoc

theorem ordinal_pos (d : Date) : 1 ≤ d.ordinal := by
  rw [ordinal_eq]
  exact Nat.le_add_left_of_le d.day_pos

theorem ordinal_le (d : Date) : d.ordinal ≤ daysInYear d.year := by
  have total := congrArg List.sum (List.take_append_drop d.month (monthLengths d.year))
  rw [List.sum_append, sum_monthLengths, sum_take_month d.year d.month_pos] at total
  have within := d.day_le
  rw [ordinal_eq]
  omega

/-- A date is found by its place in its year. -/
theorem ofOrdinal?_eq_some_iff :
    ofOrdinal? year ordinal = some d ↔ d.year = year ∧ d.ordinal = ordinal := by
  rw [ofOrdinal?, Option.bind_eq_some_iff]
  constructor
  · rintro ⟨⟨month, day⟩, found, made⟩
    obtain ⟨rfl, rfl, rfl⟩ := ofYearMonthDay?_eq_some_iff.mp made
    cases ordinal with
    | zero =>
      -- what is found in front of the first day is the day zero of the first month, no date
      have zero : 0 = d.day := congrArg Prod.snd (Option.some.inj found)
      exact absurd d.day_pos (zero ▸ Nat.not_succ_le_zero 0)
    | succ k =>
      have total := ((monthOfDay_monthLengths (Nat.le_add_left 1 k)).mp found).2.2
      exact ⟨rfl, d.ordinal_eq.trans total⟩
  · rintro ⟨rfl, rfl⟩
    have found := (monthOfDay_monthLengths d.ordinal_pos).mpr
      ⟨d.day_pos, d.day_le, d.ordinal_eq.symm⟩
    exact ⟨_, found, ofYearMonthDay?_eq_some_iff.mpr ⟨rfl, rfl, rfl⟩⟩

/-- Every place in a year of the calendar is that of a date. -/
theorem exists_ordinal (first : firstYear ≤ year) (last : year ≤ lastYear) (pos : 1 ≤ ordinal)
    (le : ordinal ≤ daysInYear year) : ∃ d : Date, d.year = year ∧ d.ordinal = ordinal := by
  rw [← sum_monthLengths] at le
  obtain ⟨month, day, found⟩ : ∃ month day, monthOfDay 1 _ _ = some (month, day) :=
    exists_monthOfDay pos le
  obtain ⟨least, fits, total⟩ := (monthOfDay_monthLengths pos).mp found
  exact ⟨⟨year, month, day, first, last, least, fits⟩, rfl, (ordinal_eq _).trans total⟩

/-! ## Day numbers -/

/-- The day number of a date lies in its year, as its day of the year. -/
theorem liesIn (d : Date) : LiesIn d.dayNumber d.year d.ordinal :=
  ⟨d.ordinal_pos, d.ordinal_le, rfl⟩

/-- A date is found by its number. -/
theorem ofDayNumber?_eq_some_iff : ofDayNumber? n = some d ↔ d.dayNumber = n := by
  rw [ofDayNumber?, ofOrdinal?_eq_some_iff]
  constructor
  · rintro ⟨years, ordinals⟩
    have number := (liesIn_yearAndOrdinal n).number
    rw [← years, ← ordinals] at number
    exact number
  · rintro rfl
    rw [yearAndOrdinal_eq_iff.mpr d.liesIn]
    exact ⟨rfl, rfl⟩

/-- The first and the last date of the calendar. -/
def first : Date := ⟨firstYear, 1, 1, by decide, by decide, by decide, by decide⟩

def last : Date := ⟨lastYear, 12, 31, by decide, by decide, by decide, by decide⟩

/-- The numbers of dates are an interval. No number between the first and the last day is left
out. -/
theorem exists_dayNumber_iff :
    (∃ d : Date, d.dayNumber = n) ↔ first.dayNumber ≤ n ∧ n ≤ last.dayNumber := by
  constructor
  · rintro ⟨d, rfl⟩
    have firstNumber : first.dayNumber = daysBeforeYear firstYear + 1 - 1 - epochDay := rfl
    have lastNumber : last.dayNumber = daysBeforeYear (lastYear + 1) - 1 - epochDay := rfl
    have starts := daysBeforeYear_mono d.firstYear_le
    have ends := daysBeforeYear_mono (Int.add_le_add_right d.le_lastYear 1)
    rw [daysBeforeYear_add_one] at ends
    have pos := d.ordinal_pos
    have le := d.ordinal_le
    rw [firstNumber, lastNumber, dayNumber]
    omega
  · rintro ⟨low, high⟩
    have h := liesIn_yearAndOrdinal n
    obtain ⟨d, years, ordinals⟩ :=
      exists_ordinal (first.liesIn.year_mono h low) (h.year_mono last.liesIn high) h.pos h.le
    exact ⟨d, ofDayNumber?_eq_some_iff.mp (ofOrdinal?_eq_some_iff.mpr ⟨years, ordinals⟩)⟩

/-! ## The next day -/

/-- A date is the day after another: the next one of the month, the first of the next month, or the
first of the next year. -/
inductive NextDay (d e : Date) : Prop
  | inMonth (year : e.year = d.year) (month : e.month = d.month) (day : e.day = d.day + 1)
  | newMonth (ends : d.day = daysInMonth d.year d.month) (year : e.year = d.year)
      (month : e.month = d.month + 1) (day : e.day = 1)
  | newYear (ends : d.month = 12 ∧ d.day = 31) (year : e.year = d.year + 1) (month : e.month = 1)
      (day : e.day = 1)

/-- One day later is one more, across months, leap days and years. Since `NextDay` follows the
calendar and not the count, this says that the count is right. -/
theorem dayNumber_nextDay (h : NextDay d e) : e.dayNumber = d.dayNumber + 1 := by
  cases h with
  | inMonth year month day =>
    have next : e.ordinal = d.ordinal + 1 := by
      rw [ordinal_eq, ordinal_eq, year, month, day, Nat.add_assoc]
    rw [dayNumber, dayNumber, year, next]
    omega
  | newMonth ends year month day =>
    have next : e.ordinal = d.ordinal + 1 := by
      rw [ordinal_eq, ordinal_eq, year, month, day, Nat.add_sub_cancel, ends,
        sum_take_month d.year d.month_pos]
    rw [dayNumber, dayNumber, year, next]
    omega
  | newYear ends year month day =>
    have lastDay : d.ordinal = daysInYear d.year := by
      rw [ordinal_eq, ends.1, ends.2, ← sum_monthLengths]
      rfl
    have firstDay : e.ordinal = 1 := by
      rw [ordinal_eq, month, day]
      rfl
    rw [dayNumber, dayNumber, year, lastDay, firstDay, daysBeforeYear_add_one]
    omega

end Date

end EntityQuery
