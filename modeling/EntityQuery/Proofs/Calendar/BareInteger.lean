import EntityQuery.Calendar.Literal
import EntityQuery.Proofs.Calendar.EpochMilli

/-!
# Integers as date literals

No layout for dates takes an integer. Each of them has a mark behind the number that it opens with,
and behind that number there is at most another digit of the integer, however many digits it has
and whatever its sign (`readPattern_eq_none`). So the integer is left to the last of the readers,
and denotes the moment that it counts to in milliseconds from 1970-01-01T00:00:00
(`integer_is_epochMilli`).
-/

namespace EntityQuery.Calendar

open Numeral

variable {cs ds rest : List Char} {n width : Nat} {z : Int} {f g : Fields} {item : Item}
  {items : List Item} {field : NumberField} {mark : Char} {text pattern : String} {t : DateTime}

/-! ## What a number leaves -/

/-- Taking digits off a text loses none of it: what is taken and what is left are the text. -/
theorem takeDigits_append_eq (width : Nat) (cs : List Char) :
    (takeDigits width cs).1 ++ (takeDigits width cs).2 = cs := by
  induction width generalizing cs with
  | zero =>
    rw [takeDigits]
    rfl
  | succ width ih =>
    cases cs with
    | nil => rfl
    | cons c cs =>
      rw [takeDigits]
      split
      · exact congrArg (c :: ·) (ih cs)
      · rfl

/-- Where a digit is taken, what is left starts behind the first character. -/
theorem suffix_of_takeDigits (taken : takeDigits width cs = (ds, rest)) (nonempty : ds ≠ []) :
    rest <:+ cs.tail := by
  have whole := takeDigits_append_eq width cs
  rw [taken] at whole
  obtain ⟨d, ds, rfl⟩ := List.exists_cons_of_ne_nil nonempty
  rw [← whole]
  exact List.suffix_append ds rest

/-- A number takes at least one character. What it leaves is therefore a suffix of the tail, in
which an integer has no sign any more. -/
theorem suffix_of_readNumber (read : readNumber width cs = some (n, rest)) : rest <:+ cs.tail := by
  rw [readNumber] at read
  split at read
  · cases read
  · next nonempty taken =>
    cases read
    exact suffix_of_takeDigits taken nonempty

theorem suffix_of_readFixed (pos : 0 < width) (read : readFixed width cs = some (n, rest)) :
    rest <:+ cs.tail := by
  rw [readFixed] at read
  obtain ⟨enough, made⟩ := Option.ite_none_right_eq_some.mp read
  cases made
  exact suffix_of_takeDigits rfl (List.ne_nil_of_length_pos (Nat.lt_of_lt_of_eq pos enough.symm))

/-- A year takes at least one character too, with a sign or without one. -/
theorem suffix_of_readYear (read : readYear cs = some (z, rest)) : rest <:+ cs.tail := by
  unfold readYear at read
  split at read
  all_goals obtain ⟨⟨n, rest⟩, number, ⟨⟩⟩ := Option.map_eq_some_iff.mp read
  · exact (suffix_of_readNumber number).trans (List.tail_suffix _)
  · exact (suffix_of_readNumber number).trans (List.tail_suffix _)
  · exact suffix_of_readNumber number

theorem tail_dropWhile_suffix (p : Char → Bool) (cs : List Char) :
    (cs.dropWhile p).tail <:+ cs.tail := by
  cases cs with
  | nil => exact List.suffix_refl _
  | cons c cs =>
    rw [List.dropWhile_cons]
    split
    · exact (List.tail_suffix _).trans (List.dropWhile_suffix p)
    · exact List.suffix_refl _

/-- The item of a year leaves a suffix of the tail. Blanks in front of it only make it shorter. -/
theorem Item.suffix_of_read_year (read : Item.year.read f cs = some (g, rest)) :
    rest <:+ cs.tail := by
  simp only [Item.read, Option.bind_eq_bind, Option.bind_eq_some_iff, Option.pure_def] at read
  obtain ⟨⟨z, rest⟩, year, g, -, ⟨⟩⟩ := read
  exact (suffix_of_readYear year).trans (tail_dropWhile_suffix _ cs)

theorem Item.suffix_of_read_number (read : (Item.number field).read f cs = some (g, rest)) :
    rest <:+ cs.tail := by
  simp only [Item.read, Option.bind_eq_bind, Option.bind_eq_some_iff, Option.pure_def] at read
  obtain ⟨⟨n, rest⟩, number, g, -, ⟨⟩⟩ := read
  exact (suffix_of_readNumber number).trans (tail_dropWhile_suffix _ cs)

/-! ## Layouts -/

/-- A layout opens with a year or another number and a mark behind it. -/
def opensWithNumber : List Item → Bool
  | .year :: .literal mark :: _ | .number _ :: .literal mark :: _ => !mark.isDigit
  | _ => false

/-- Every layout that is tried opens with a number or a year and goes on with a mark. This is the
only fact about the layouts that the exclusion of integers rests on. -/
theorem layouts_open : ∀ layout ∈ dateTimeLayouts ++ dateLayouts,
    (itemsOfPattern? layout.toList).any opensWithNumber := by
  decide

/-- There is no mark among digits. -/
theorem afterChar?_eq_none (other : mark.isDigit = false) (each : ∀ c ∈ cs, c.isDigit) :
    afterChar? mark cs = none := by
  cases cs with
  | nil => rfl
  | cons d rest =>
    have differs : d ≠ mark := by
      rintro rfl
      exact Bool.eq_false_iff.mp other (each d List.mem_cons_self)
    exact if_neg differs

theorem Item.read_literal : (Item.literal mark).read f cs = (afterChar? mark cs).map (f, ·) := by
  cases cs with
  | nil => rfl
  | cons d rest =>
    rw [Item.read, afterChar?]
    split <;> rfl

/-- Behind a number that leaves digits only, no mark is found. -/
theorem readItems_mark_eq_none
    (leaves : ∀ {g rest}, item.read f cs = some (g, rest) → rest <:+ cs.tail)
    (other : mark.isDigit = false) (behind : ∀ c ∈ cs.tail, c.isDigit) :
    readItems (item :: .literal mark :: items) f cs = none := by
  rw [readItems]
  cases read : item.read f cs with
  | none => rfl
  | some left =>
    obtain ⟨g, rest⟩ := left
    have unmarked := afterChar?_eq_none other fun c mem => behind c ((leaves read).subset mem)
    simp only [readItems, Item.read_literal, unmarked, Option.map_none]

/-- By a layout that opens so nothing can be read of a text that has only digits behind its first
character: the mark behind the number is not there. -/
theorem readItems_eq_none (opens : opensWithNumber items) (behind : ∀ c ∈ cs.tail, c.isDigit) :
    readItems items f cs = none := by
  unfold opensWithNumber at opens
  split at opens
  · exact readItems_mark_eq_none Item.suffix_of_read_year ((Bool.not_eq_true' _).mp opens) behind
  · exact readItems_mark_eq_none Item.suffix_of_read_number ((Bool.not_eq_true' _).mp opens) behind
  · cases opens

/-- A layout that opens with a number and a mark takes nothing that goes on with digits only. -/
theorem readPattern_eq_none (opens : (itemsOfPattern? pattern.toList).any opensWithNumber)
    (behind : ∀ c ∈ cs.tail, c.isDigit) : readPattern pattern cs = none := by
  rw [readPattern]
  cases layout : itemsOfPattern? pattern.toList with
  | none => rfl
  | some items =>
    rw [layout, Option.any_some] at opens
    exact readItems_eq_none opens behind

/-- The timestamp format needs a hyphen behind four digits, so it takes no integer either. -/
theorem readInternet?_eq_none (behind : ∀ c ∈ cs.tail, c.isDigit) : readInternet? cs = none := by
  rw [readInternet?]
  cases year : readFixed 4 cs with
  | none => rfl
  | some left =>
    obtain ⟨n, rest⟩ := left
    have left := suffix_of_readFixed (by decide) year
    have unmarked : afterChar? '-' rest = none :=
      afterChar?_eq_none rfl fun c mem => behind c (left.subset mem)
    change (afterChar? '-' rest).bind _ = _
    rw [unmarked]
    rfl

/-! ## Integers -/

/-- The bounds of 64 bits leave no moment out. -/
theorem readMillis?_eq_some_iff (h : Signed cs z) : readMillis? cs = some t ↔ t.AtMilli z := by
  rw [readMillis?]
  constructor
  · intro found
    split at found
    · next y read =>
      rw [h.unique (readInt64_eq_ok.mp read).1]
      exact DateTime.ofEpochMilli?_eq_some_iff.mp found
    · cases found
  · intro counted
    rw [readInt64_eq_ok.mpr ⟨h, counted.fitsInt64⟩]
    exact DateTime.ofEpochMilli?_eq_some_iff.mpr counted

/-- No layout with a time of day takes an integer. -/
theorem readDateTime?_eq_none {layout : String} (mem : layout ∈ dateTimeLayouts)
    (behind : ∀ c ∈ cs.tail, c.isDigit) : readDateTime? cs layout = none := by
  rw [readDateTime?, readPattern_eq_none (layouts_open _ (List.mem_append_left _ mem)) behind]
  rfl

/-- No layout of a bare date takes an integer, not even one that would be a year. -/
theorem readDay?_eq_none {layout : String} (mem : layout ∈ dateLayouts)
    (behind : ∀ c ∈ cs.tail, c.isDigit) : readDay? cs layout = none := by
  rw [readDay?, readPattern_eq_none (layouts_open _ (List.mem_append_right _ mem)) behind]
  rfl

/-- An integer is left to the reader of counts. -/
theorem readLiteral?_of_digits (behind : ∀ c ∈ text.toList.tail, c.isDigit) :
    readLiteral? none text = readMillis? text.toList := by
  have dateTimes : dateTimeLayouts.findSome? (readDateTime? text.toList) = none :=
    List.findSome?_eq_none_iff.mpr fun _ mem => readDateTime?_eq_none mem behind
  have days : dateLayouts.findSome? (readDay? text.toList) = none :=
    List.findSome?_eq_none_iff.mpr fun _ mem => readDay?_eq_none mem behind
  rw [readLiteral?, dateTimes, days, readInternet?_eq_none behind]
  rfl

theorem readLiteral?_eq_some_iff (h : Signed text.toList z) :
    readLiteral? none text = some t ↔ t.AtMilli z := by
  rw [readLiteral?_of_digits h.isDigit_of_mem_tail]
  exact readMillis?_eq_some_iff h

/-- Bare integers are counts of milliseconds. Whatever the number of its digits and its sign, a
numeral of an integer is taken by no layout for dates and times, by none for dates and not as a
timestamp with a zone; it is read as the moment so many milliseconds after
1970-01-01T00:00:00, or before it, and as nothing if the calendar has no such moment. From the first
moment of the calendar to the last, every integer in decimal is read. With a day more of
milliseconds the same time of the next day is read. -/
theorem integer_is_epochMilli (n : Int) :
    (∀ text : String, Signed text.toList n →
      (∀ layout ∈ dateTimeLayouts, readDateTime? text.toList layout = none) ∧
      (∀ layout ∈ dateLayouts, readDay? text.toList layout = none) ∧
      readInternet? text.toList = none ∧
      ∀ t, readLiteral? none text = some t ↔ t.AtMilli n) ∧
    (DateTime.first.epochMilli ≤ n → n ≤ DateTime.last.epochMilli →
      ∃ t, readLiteral? none (decimal n) = some t ∧ t.AtMilli n) ∧
    ∀ t d, readLiteral? none (decimal n) = some t → t.date.NextDay d →
      readLiteral? none (decimal (n + 86400000)) = some ⟨d, t.time⟩ := by
  have shown := signed_decimal n
  refine ⟨fun text numeral => ?_, fun low high => ?_, fun t d read next => ?_⟩
  · have behind := numeral.isDigit_of_mem_tail
    exact ⟨fun _ mem => readDateTime?_eq_none mem behind, fun _ mem => readDay?_eq_none mem behind,
      readInternet?_eq_none behind, fun t => readLiteral?_eq_some_iff numeral⟩
  · obtain ⟨t, counted⟩ := DateTime.exists_atMilli_iff.mpr ⟨low, high⟩
    exact ⟨t, (readLiteral?_eq_some_iff shown).mpr counted, counted⟩
  · have counted := (readLiteral?_eq_some_iff shown).mp read
    exact (readLiteral?_eq_some_iff (signed_decimal _)).mpr (counted.nextDay next)

/-- Eight digits are no year, month and day, and fourteen are no date with a time of day. -/
theorem integer_is_epochMilli_compact :
    let early : DateTime := ⟨⟨1970, 1, 1, by decide, by decide, by decide, by decide⟩,
      ⟨5, 36, 50, 304000000, by decide, by decide, by decide, by decide⟩⟩
    let time : Time := ⟨10, 39, 9, 393000000, by decide, by decide, by decide, by decide⟩
    let day : Date := ⟨1329, 7, 24, by decide, by decide, by decide, by decide⟩
    let next : Date := ⟨1329, 7, 25, by decide, by decide, by decide, by decide⟩
    Signed "20210304".toList 20210304 ∧ readLiteral? none "20210304" = some early ∧
      (DateTime.first.epochMilli ≤ -20210304050607 ∧ -20210304050607 ≤ DateTime.last.epochMilli) ∧
      readLiteral? none "-20210304050607" = some ⟨day, time⟩ ∧
      day.NextDay next ∧ readLiteral? none "-20210217650607" = some ⟨next, time⟩ := by
  intro early time day next
  have numeral : Signed "20210304".toList 20210304 := signed_decimal 20210304
  have earlyAt : early.AtMilli 20210304 := ⟨by decide, by decide, by decide⟩
  have dayAt : DateTime.AtMilli ⟨day, time⟩ (-20210304050607) := ⟨by decide, by decide, by decide⟩
  have within : DateTime.first.epochMilli ≤ -20210304050607 ∧
      -20210304050607 ≤ DateTime.last.epochMilli := by decide
  have tomorrow : day.NextDay next := .inMonth rfl rfl rfl
  obtain ⟨every, -, -⟩ := integer_is_epochMilli 20210304
  obtain ⟨-, read, daily⟩ := integer_is_epochMilli (-20210304050607)
  obtain ⟨t, found, counted⟩ := read within.1 within.2
  rw [counted.unique dayAt] at found
  exact ⟨numeral, ((every "20210304" numeral).2.2.2 early).mpr earlyAt, within, found, tomorrow,
    daily _ next found tomorrow⟩

end EntityQuery.Calendar
