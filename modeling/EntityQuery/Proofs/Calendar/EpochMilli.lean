import EntityQuery.Proofs.Calendar.DayNumber
import EntityQuery.Proofs.Calendar.Rendering

/-!
# Moments as counts of milliseconds

A count of milliseconds from 1970-01-01T00:00:00 names one moment, and that is the one which is
found for it (`DateTime.ofEpochMilli?_eq_some_iff`): it lies so many whole milliseconds behind the
start of 1970, before it if the count is negative, and in no leap second. There is one for every
count from the first moment of the calendar to the last (`DateTime.exists_atMilli_iff`). A day more
of milliseconds leads to the same time of the next day (`DateTime.AtMilli.nextDay`).
-/

namespace EntityQuery

/-! ## Times of day -/

/-- A time is made of its own parts. Of the leap seconds only those at the end of a minute are
made. -/
theorem Time.ofParts?_eq_some_iff {t : Time} {hour minute second nanosecond : Nat} :
    ofParts? hour minute second nanosecond = some t ↔
      t.hour = hour ∧ t.minute = minute ∧ t.second = second ∧ t.nanosecond = nanosecond ∧
        (nanosecond < 1000000000 ∨ second = 59) := by
  rw [ofParts?]
  constructor
  · intro made
    split at made
    · next parts =>
      cases made
      exact ⟨rfl, rfl, rfl, rfl, parts.2.2.2.2⟩
    · cases made
  · rintro ⟨rfl, rfl, rfl, rfl, leap⟩
    exact dif_pos ⟨t.hour_lt, t.minute_lt, t.second_lt, t.nanosecond_lt, leap⟩

/-- The time of day that many milliseconds after midnight. -/
def Time.ofMilli (millis : Nat) (within : millis < 86400000) : Time where
  hour := millis / 3600000
  minute := millis / 60000 % 60
  second := millis / 1000 % 60
  nanosecond := millis % 1000 * 1000000
  hour_lt := by omega
  minute_lt := by omega
  second_lt := by omega
  nanosecond_lt := by omega

namespace DateTime

variable {t u : DateTime} {n seconds : Int} {nanosecond : Nat}

/-! ## Counts -/

/-- The number of whole milliseconds from 1970-01-01T00:00:00. -/
def epochMilli (t : DateTime) : Int :=
  t.epochSecond * 1000 + (t.time.nanosecond / 1000000 : Nat)

/-- A moment lies exactly so many milliseconds from 1970-01-01T00:00:00, and not in a leap second,
which shares its count with the second before it. -/
structure AtMilli (t : DateTime) (n : Int) : Prop where
  count : t.epochMilli = n
  whole : t.IsWholeMillis
  regular : t.time.nanosecond < 1000000000

/-- A moment is made of a count of seconds and a fraction exactly when it has both. -/
theorem ofEpochSecond?_eq_some_iff :
    ofEpochSecond? seconds nanosecond = some t ↔
      t.epochSecond = seconds ∧ t.time.nanosecond = nanosecond ∧
        (nanosecond < 1000000000 ∨ t.time.second = 59) := by
  simp only [ofEpochSecond?, Option.bind_eq_bind, Option.bind_eq_some_iff,
    Date.ofDayNumber?_eq_some_iff, Time.ofParts?_eq_some_iff, Option.pure_def, Option.some.injEq]
  have hour := t.time.hour_lt
  have minute := t.time.minute_lt
  have second := t.time.second_lt
  constructor
  · rintro ⟨date, days, time, ⟨hours, minutes, whole, fraction, leap⟩, rfl⟩
    simp only [epochSecond]
    omega
  · rintro ⟨count, fraction, leap⟩
    rw [epochSecond] at count
    refine ⟨t.date, ?days, t.time, ⟨?hours, ?minutes, ?whole, fraction, ?leap⟩, rfl⟩
    all_goals omega

/-- The moment that is found for a count of milliseconds is the one that it counts to. -/
theorem ofEpochMilli?_eq_some_iff : ofEpochMilli? n = some t ↔ t.AtMilli n := by
  rw [ofEpochMilli?, ofEpochSecond?_eq_some_iff]
  constructor
  · rintro ⟨count, fraction, -⟩
    refine ⟨?_, ?_, ?_⟩
    · rw [epochMilli]
      omega
    · rw [IsWholeMillis]
      omega
    · omega
  · rintro ⟨count, whole, regular⟩
    rw [epochMilli] at count
    rw [IsWholeMillis] at whole
    exact ⟨by omega, by omega, .inl (by omega)⟩

/-- A count names one moment. -/
theorem AtMilli.unique (h : t.AtMilli n) (h' : u.AtMilli n) : t = u :=
  Option.some.inj
    ((ofEpochMilli?_eq_some_iff.mpr h).symm.trans (ofEpochMilli?_eq_some_iff.mpr h'))

/-! ## The range of counts -/

/-- The first and the last moment of the calendar, a leap second behind it left aside. -/
def first : DateTime := .startOf .first

def last : DateTime := ⟨.last, ⟨23, 59, 59, 999999999, by decide, by decide, by decide, by decide⟩⟩

/-- A count of milliseconds belongs to a moment when it is not in front of the first one or behind
the last. -/
theorem exists_atMilli_iff :
    (∃ t : DateTime, t.AtMilli n) ↔ first.epochMilli ≤ n ∧ n ≤ last.epochMilli := by
  have firstMilli : first.epochMilli = Date.first.dayNumber * 86400000 := by decide
  have lastMilli : last.epochMilli = Date.last.dayNumber * 86400000 + 86399999 := by decide
  rw [firstMilli, lastMilli]
  constructor
  · rintro ⟨t, rfl, -, regular⟩
    have days := Date.exists_dayNumber_iff.mp ⟨t.date, rfl⟩
    have hour := t.time.hour_lt
    have minute := t.time.minute_lt
    have second := t.time.second_lt
    rw [epochMilli, epochSecond]
    omega
  · rintro ⟨low, high⟩
    obtain ⟨date, number⟩ : ∃ d : Date, d.dayNumber = n / 86400000 :=
      Date.exists_dayNumber_iff.mpr ⟨by omega, by omega⟩
    have within : (n % 86400000).toNat < 86400000 := by omega
    refine ⟨⟨date, .ofMilli _ within⟩, ?_, Nat.mul_mod_left _ _, ?_⟩
    · simp only [epochMilli, epochSecond, Time.ofMilli]
      omega
    · simp only [Time.ofMilli]
      omega

theorem epochMilli_first : first.epochMilli = -8334601228800000 := by decide

theorem epochMilli_last : last.epochMilli = 8210266876799999 := by decide

/-- The calendar ends before the counts of 64 bits do. -/
theorem AtMilli.fitsInt64 (h : t.AtMilli n) : Numeral.FitsInt64 n := by
  have bounds := exists_atMilli_iff.mp ⟨t, h⟩
  rw [epochMilli_first, epochMilli_last] at bounds
  rw [Numeral.FitsInt64, Numeral.greatestInt64]
  omega

/-- A day later the time is the same. -/
theorem AtMilli.nextDay {d : Date} (h : t.AtMilli n) (next : t.date.NextDay d) :
    AtMilli ⟨d, t.time⟩ (n + 86400000) := by
  refine ⟨?_, h.whole, h.regular⟩
  have count := h.count
  rw [epochMilli, epochSecond] at count ⊢
  simp only [Date.dayNumber_nextDay next]
  omega

end DateTime

end EntityQuery
