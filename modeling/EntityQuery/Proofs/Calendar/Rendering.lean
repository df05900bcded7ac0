import EntityQuery.Calendar.Literal
import EntityQuery.Proofs.Calendar.DayNumber
import EntityQuery.Proofs.Calendar.Layout
import Mathlib.Data.Set.Function

/-!
# Reading the text of a moment

The text of a moment is caught by the first of the layouts for literals, whatever its year and also
in a leap second. Each part of the text puts its field in its slot, and the fields are those that
the moment is written with (`Fields.ofMoment`).

Put together again they make this moment, but for what is finer than a millisecond, which the text
leaves out (`readLiteral?_millisText`). Only a leap second that does not follow the second 59 is
lost: its text is the one of the next second, and is read as that (`DateTime.named`).
-/

namespace EntityQuery

open Numeral Calendar

/-! ## Bounds -/

/-- Days that exist are in the bounds of the fields that a date is written with. -/
theorem Calendar.bounds_of_le_daysInMonth {year : Int} {month day : Nat} (pos : 1 ≤ day)
    (h : day ≤ daysInMonth year month) : (1 ≤ month ∧ month ≤ 12) ∧ day ≤ 31 := by
  have short : ∀ length ∈ monthLengths year, length ≤ 31 := by
    simp only [monthLengths, List.forall_mem_cons]
    split <;> decide
  obtain ⟨named, length, found, fits⟩ := (le_daysInMonth_iff pos).mp h
  have twelve : month - 1 < 12 := (List.getElem?_eq_some_iff.mp found).1
  exact ⟨⟨named, by omega⟩, Nat.le_trans fits (short length (List.mem_of_getElem? found))⟩

/-- Twelve months, which two digits can write. -/
theorem Date.month_bounds (d : Date) : 1 ≤ d.month ∧ d.month ≤ 12 :=
  (bounds_of_le_daysInMonth d.day_pos d.day_le).1

theorem Date.day_bounds (d : Date) : 1 ≤ d.day ∧ d.day ≤ 31 :=
  ⟨d.day_pos, (bounds_of_le_daysInMonth d.day_pos d.day_le).2⟩

/-! ## Whole milliseconds -/

namespace DateTime

variable {t : DateTime}

/-- The moment without what is finer than a millisecond. -/
def wholeMillis (t : DateTime) : DateTime :=
  ⟨t.date, { t.time with
    nanosecond := t.time.nanosecond / 1000000 * 1000000
    nanosecond_lt := Nat.lt_of_le_of_lt (Nat.div_mul_le_self _ _) t.time.nanosecond_lt }⟩

/-- A moment has nothing finer than a millisecond. -/
def IsWholeMillis (t : DateTime) : Prop := t.time.nanosecond % 1000000 = 0

instance (t : DateTime) : Decidable t.IsWholeMillis :=
  inferInstanceAs (Decidable (t.time.nanosecond % 1000000 = 0))

/-- Dropping what is below a millisecond drops nothing where there is nothing. -/
theorem IsWholeMillis.wholeMillis_eq (h : t.IsWholeMillis) : t.wholeMillis = t := by
  have same : t.time.nanosecond / 1000000 * 1000000 = t.time.nanosecond :=
    Nat.div_mul_cancel (Nat.dvd_of_mod_eq_zero h)
  obtain ⟨date, time⟩ := t
  simp only [wholeMillis, same]

/-! ## Leap seconds -/

/-- If a moment lies in a leap second, it is one that follows the second 59. No other leap second
can be read or made from parts. -/
def LeapEndsMinute (t : DateTime) : Prop :=
  t.time.nanosecond < 1000000000 ∨ t.time.second = 59

instance (t : DateTime) : Decidable t.LeapEndsMinute :=
  inferInstanceAs (Decidable (t.time.nanosecond < 1000000000 ∨ t.time.second = 59))

/-- The moment that the text of a moment names. It is the moment itself, unless this lies in a leap
second that does not follow the second 59; then it is as far into the next second. -/
def named (t : DateTime) : DateTime :=
  if h : t.LeapEndsMinute then t
  else
    ⟨t.date, { t.time with
      second := t.time.second + 1
      nanosecond := t.time.nanosecond - 1000000000
      second_lt := by
        have below := t.time.second_lt
        unfold LeapEndsMinute at h
        omega
      nanosecond_lt := Nat.lt_of_le_of_lt (Nat.sub_le _ _) t.time.nanosecond_lt }⟩

/-- A moment with its leap second at the end of a minute, or with none, is the one that its text
names. -/
theorem LeapEndsMinute.named_eq (h : t.LeapEndsMinute) : t.named = t := dif_pos h

theorem second_named (h : ¬t.LeapEndsMinute) : t.named.time.second = t.time.second + 1 := by
  rw [named, dif_neg h]

/-- The moment that a text names has no leap second within a minute. Naming twice is therefore
naming once. -/
theorem leapEndsMinute_named (t : DateTime) : t.named.LeapEndsMinute := by
  by_cases h : t.LeapEndsMinute
  · rwa [h.named_eq]
  · rw [named, dif_neg h]
    exact .inl (Nat.sub_lt_left_of_lt_add (by unfold LeapEndsMinute at h; omega)
      t.time.nanosecond_lt)

/-- What is written of a moment is what is written of the one that it names. -/
theorem millisText_named (t : DateTime) : t.named.millisText = t.millisText := by
  by_cases h : t.LeapEndsMinute
  · rw [h.named_eq]
  · have below := t.time.nanosecond_lt
    have leap : 1000000000 ≤ t.time.nanosecond := Nat.le_of_not_lt fun regular => h (.inl regular)
    have second : t.time.second + 1 + (t.time.nanosecond - 1000000000) / 1000000000 =
        t.time.second + t.time.nanosecond / 1000000000 := by omega
    have fraction : (t.time.nanosecond - 1000000000) % 1000000000 =
        t.time.nanosecond % 1000000000 := by omega
    rw [named, dif_neg h]
    simp only [millisText, secondsText, Time.writtenSecond, Time.writtenNanosecond, second,
      fraction]

/-- The moment that is named is the moment itself, what is finer than a millisecond left aside, only
if there is no leap second elsewhere. -/
theorem wholeMillis_named_iff : t.named.wholeMillis = t.wholeMillis ↔ t.LeapEndsMinute := by
  constructor
  · intro same
    by_contra elsewhere
    have second : t.named.time.second = t.time.second := congrArg (·.time.second) same
    rw [second_named elsewhere] at second
    exact Nat.succ_ne_self _ second
  · intro h
    rw [h.named_eq]

end DateTime

/-! ## Times as they are written -/

namespace Time

variable {t : Time}

/-- The second is written with a number up to 60, which is also the most that is read. -/
theorem writtenSecond_le (t : Time) : t.writtenSecond ≤ 60 := by
  have second := t.second_lt
  have nanosecond := t.nanosecond_lt
  rw [writtenSecond]
  omega

/-- The fraction that is written stays below a second, since a whole one went into the number of the
second. -/
theorem writtenNanosecond_lt (t : Time) : t.writtenNanosecond < 1000000000 :=
  Nat.mod_lt _ (by decide)

/-- What is written of a time is put together to it, if a leap second can be read where it is. -/
theorem ofWritten?_written (h : t.nanosecond < 1000000000 ∨ t.second = 59) :
    ofWritten? t.hour t.minute t.writtenSecond t.writtenNanosecond = some t := by
  have made : ofParts? t.hour t.minute t.second t.nanosecond = some t :=
    dif_pos ⟨t.hour_lt, t.minute_lt, t.second_lt, t.nanosecond_lt, h⟩
  have second := t.second_lt
  have nanosecond := t.nanosecond_lt
  rw [ofWritten?, writtenSecond, writtenNanosecond]
  by_cases regular : t.nanosecond < 1000000000
  · rw [Nat.div_eq_of_lt regular, Nat.mod_eq_of_lt regular, Nat.add_zero,
      if_neg (Nat.ne_of_lt second), made]
  · have last := h.resolve_left regular
    have written : t.second + t.nanosecond / 1000000000 = 60 := by omega
    have whole : 1000000000 + t.nanosecond % 1000000000 = t.nanosecond := by omega
    rw [if_pos written, whole, ← last, made]

end Time

/-! ## Fields -/

namespace Calendar

/-- The fields that a moment is written with: those of its date by month and day, and those of its
time. -/
def Fields.ofMoment (t : DateTime) : Fields :=
  { Fields.empty with
    year := some t.date.year
    month := some t.date.month
    day := some t.date.day
    halfDay := some (t.time.hour / 12)
    hourOfHalf := some (t.time.hour % 12)
    minute := some t.time.minute
    second := some t.time.writtenSecond
    nanosecond := some t.time.writtenNanosecond }

theorem fits_none {α : Type} [DecidableEq α] (value : α) : fits none value := by simp [fits]

theorem fits_some {α : Type} [DecidableEq α] (value : α) : fits (some value) value := by
  simp [fits]

/-- The fields that a text fills make up the date they came from. -/
theorem Fields.date_ofMoment (t : DateTime) : (ofMoment t).date = .ok t.date := by
  have named : Date.ofYearMonthDay? t.date.year t.date.month t.date.day = some t.date :=
    dif_pos ⟨t.date.firstYear_le, t.date.le_lastYear, t.date.day_pos, t.date.day_le⟩
  have described : (ofMoment t).describes t.date = true := by
    simp [describes, ofMoment, empty, yearFits, fits_none, fits_some]
  obtain ⟨others, ways⟩ : ∃ others, (ofMoment t).ways (some t.date.year) none =
      some (Date.ofYearMonthDay? t.date.year t.date.month t.date.day) :: others := ⟨_, rfl⟩
  have years : resolveYear (ofMoment t).year (ofMoment t).century (ofMoment t).yearOfCentury =
      .ok (some t.date.year) := rfl
  have weekYears : resolveYear (ofMoment t).weekYear none (ofMoment t).weekYearOfCentury =
      .ok none := rfl
  rw [date, years, ok_bind, weekYears, ok_bind, ways, named]
  exact if_pos described

/-- They make up the time as well, unless its leap second is within a minute: such a time is written
as the next second, and read as that. -/
theorem Fields.time_ofMoment {t : DateTime} (h : t.LeapEndsMinute) :
    (ofMoment t).time = .ok t.time := by
  have written : Time.ofWritten? (t.time.hour / 12 * 12 + t.time.hour % 12) t.time.minute
      t.time.writtenSecond t.time.writtenNanosecond = some t.time := by
    rw [Nat.div_add_mod' t.time.hour 12]
    exact Time.ofWritten?_written h
  simp only [time, ofMoment, Option.getD_some, written]

/-- The fields of a moment are those that are put into empty slots one behind the other. -/
theorem Fields.fill_ofMoment (t : DateTime) :
    ((Fields.empty.withYear t.date.year).bind fun f =>
      (f.withNumber .month t.date.month).bind fun f =>
      (f.withNumber .day t.date.day).bind fun f =>
      (f.withNumber .hour t.time.hour).bind fun f =>
      (f.withNumber .minute t.time.minute).bind fun f =>
      (f.withNumber .second t.time.writtenSecond).bind fun f =>
      f.withNumber .nanosecond t.time.writtenNanosecond) = some (ofMoment t) := by
  have within {low high n : Nat} (least : low ≤ n) (most : n ≤ high) : ¬(n < low ∨ high < n) := by
    omega
  have month := within t.date.month_bounds.1 t.date.month_bounds.2
  have day := within t.date.day_bounds.1 t.date.day_bounds.2
  have hour := within (Nat.zero_le _) (Nat.le_of_lt_succ t.time.hour_lt)
  have minute := within (Nat.zero_le _) (Nat.le_of_lt_succ t.time.minute_lt)
  have second := within (Nat.zero_le _) t.time.writtenSecond_le
  have nanosecond := within (Nat.zero_le _) (Nat.le_of_lt_succ t.time.writtenNanosecond_lt)
  simp only [withYear, withNumber, withHour, NumberField.bounds, agree, empty, month, day, hour,
    minute, second, nanosecond, if_false, Option.map_some, Option.bind_some, Option.bind_eq_bind,
    Option.pure_def]
  rfl

/-- The fields of a moment are put together to the moment, if a leap second can be read there. -/
theorem Fields.dateTime?_ofMoment {t : DateTime} (h : t.LeapEndsMinute) :
    (ofMoment t).dateTime? = some t := by
  have counted : (ofMoment t).hasCount t = true := by
    rw [hasCount, show (ofMoment t).epochSecond = none from rfl, fits_none, Bool.true_or]
  rw [dateTime?, date_ofMoment, time_ofMoment h]
  exact if_pos counted

/-! ## The text -/

/-- The layout that the text of a moment is written in. -/
theorem itemsOfPattern?_fraction : itemsOfPattern? "%Y-%m-%dT%H:%M:%S%.f".toList =
    some [.year, .literal '-', .number .month, .literal '-', .number .day, .literal 'T',
      .number .hour, .literal ':', .number .minute, .literal ':', .number .second, .fraction] := by
  decide

/-- The text of a moment as its parts and marks, in the order in which the layout reads them. -/
theorem toList_millisText (t : DateTime) : t.millisText.toList =
    (DateTime.yearText t.date.year).toList ++ '-' :: ((padded 2 t.date.month).toList ++
      '-' :: ((padded 2 t.date.day).toList ++ 'T' :: ((padded 2 t.time.hour).toList ++
      ':' :: ((padded 2 t.time.minute).toList ++ ':' :: ((padded 2 t.time.writtenSecond).toList ++
      '.' :: (padded 3 (t.time.writtenNanosecond / 1000000)).toList))))) := by
  have marks : "-".toList = ['-'] ∧ "T".toList = ['T'] ∧ ":".toList = [':'] ∧ ".".toList = ['.'] :=
    ⟨rfl, rfl, rfl, rfl⟩
  simp only [DateTime.millisText, DateTime.secondsText, String.toList_append, List.append_assoc,
    marks, List.cons_append, List.nil_append]

/-- Two digits are read for a field that takes as many. -/
theorem readItems_two {field : NumberField} {n : Nat} (width : field.width = 2) (small : n < 100)
    {mark : Char} (other : mark.isDigit = false) (items : List Item) (f : Fields)
    (rest : List Char) :
    readItems (.number field :: .literal mark :: items) f
        ((padded 2 n).toList ++ mark :: rest) =
      (f.withNumber field n).bind (readItems items · rest) := by
  have fits : (padded 2 n).toList.length ≤ field.width := by
    rw [width]
    exact (length_padded (by decide) small).le
  exact readItems_number (digits_padded 2 n) fits other

/-- What is finer than a millisecond has no part in the second, and leaves whole milliseconds of the
fraction. -/
theorem written_wholeMillis (t : DateTime) :
    t.wholeMillis.time.writtenSecond = t.time.writtenSecond ∧
      t.wholeMillis.time.writtenNanosecond = t.time.writtenNanosecond / 1000000 * 1000000 := by
  simp only [DateTime.wholeMillis, Time.writtenSecond, Time.writtenNanosecond]
  constructor <;> omega

/-- The text of a moment has the fields of the moment, down to the millisecond. -/
theorem readPattern_millisText (t : DateTime) :
    readPattern "%Y-%m-%dT%H:%M:%S%.f" t.millisText.toList =
      some (Fields.ofMoment t.wholeMillis) := by
  have monthHigh := t.date.month_bounds.2
  have dayHigh := t.date.day_bounds.2
  have hourHigh := t.time.hour_lt
  have minuteHigh := t.time.minute_lt
  have secondHigh := t.time.writtenSecond_le
  have nanosecondHigh := t.time.writtenNanosecond_lt
  have month := @readItems_two .month t.date.month rfl (by omega) '-' rfl
  have day := @readItems_two .day t.date.day rfl (by omega) 'T' rfl
  have hour := @readItems_two .hour t.time.hour rfl (by omega) ':' rfl
  have minute := @readItems_two .minute t.time.minute rfl (by omega) ':' rfl
  have places : (padded 3 (t.time.writtenNanosecond / 1000000)).toList.length = 3 :=
    length_padded (by decide) (show _ < 1000 by omega)
  have twoDigits : (padded 2 t.time.writtenSecond).toList.length ≤ 2 :=
    (length_padded (by decide) (show _ < 100 by omega)).le
  have second (f : Fields) := @readItems_fraction _ _ f .second _ _
    (digits_padded 2 t.time.writtenSecond) twoDigits
    (digits_padded 3 (t.time.writtenNanosecond / 1000000)) (places.trans_le (by decide))
  rw [places] at second
  rw [readPattern, itemsOfPattern?_fraction, Option.bind_some, toList_millisText,
    readItems_year _ rfl]
  have filled := Fields.fill_ofMoment t.wholeMillis
  rw [(written_wholeMillis t).1, (written_wholeMillis t).2] at filled
  simp only [month, day, hour, minute, second]
  exact filled

/-- The first of the layouts catches the text of a moment. -/
theorem readLiteral?_millisText {t : DateTime} (h : t.LeapEndsMinute) :
    readLiteral? none t.millisText = some t.wholeMillis := by
  have ends : t.wholeMillis.LeapEndsMinute :=
    h.imp_left (Nat.lt_of_le_of_lt (Nat.div_mul_le_self _ _))
  have first : readDateTime? t.millisText.toList "%Y-%m-%dT%H:%M:%S%.f" = some t.wholeMillis := by
    rw [readDateTime?, readPattern_millisText, Option.bind_some, Fields.dateTime?_ofMoment ends]
  have caught : dateTimeLayouts.findSome? (readDateTime? t.millisText.toList) =
      some t.wholeMillis := by
    rw [dateTimeLayouts, List.findSome?_cons, first]
  rw [readLiteral?, caught]
  rfl

/-- The text of any moment is read as the moment that it names. -/
theorem readLiteral?_named (t : DateTime) :
    readLiteral? none t.millisText = some t.named.wholeMillis := by
  rw [← t.millisText_named]
  exact readLiteral?_millisText t.leapEndsMinute_named

/-- The text of a moment consists of digits and a few marks. None of them is reserved in filters, so
the text needs no quotes there. -/
theorem plain_millisText (t : DateTime) :
    ∀ c ∈ t.millisText.toList, c ∈ ['-', '+', 'T', ':', '.'] ∨ c.isDigit := by
  have digits (width n : Nat) :
      ∀ c ∈ (padded width n).toList, c ∈ ['-', '+', 'T', ':', '.'] ∨ c.isDigit :=
    fun c mem => .inr ((digits_padded width n).each c mem)
  have year : ∀ c ∈ (DateTime.yearText t.date.year).toList,
      c ∈ ['-', '+', 'T', ':', '.'] ∨ c.isDigit := by
    intro c mem
    rcases sign_or_isDigit_of_mem_yearText mem with (rfl | rfl) | digit
    · exact .inl (by decide)
    · exact .inl (by decide)
    · exact .inr digit
  rw [toList_millisText]
  simp only [List.forall_mem_append, List.forall_mem_cons]
  exact ⟨year, by decide, digits 2 _, by decide, digits 2 _, by decide, digits 2 _, by decide,
    digits 2 _, by decide, digits 2 _, by decide, digits 3 _⟩

end Calendar

/-- Moments of whole milliseconds have different texts, if none lies in a leap second elsewhere than
behind the second 59. -/
theorem DateTime.millisText_injOn :
    Set.InjOn millisText {t | t.IsWholeMillis ∧ t.LeapEndsMinute} := by
  intro s hs t ht same
  have read := readLiteral?_millisText hs.2
  rw [same, readLiteral?_millisText ht.2, hs.1.wholeMillis_eq, ht.1.wholeMillis_eq] at read
  exact (Option.some.inj read).symm

end EntityQuery
