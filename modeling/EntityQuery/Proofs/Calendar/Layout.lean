import EntityQuery.Calendar.Reading
import EntityQuery.Proofs.Numeral.Scientific
import EntityQuery.Proofs.Text.Blank

/-!
# Reading numbers by a layout

A numeric item of a layout takes as many digits as it can and may, so it takes a run of digits that
something else is behind, if the run is not too long for it (`takeDigits_append`). Where a layout
has a mark behind a number, the text up to the mark is read as that number, and the rest of the
text is left to the rest of the layout (`readItems_year`, `readItems_number`). The year in front is
read with the sign that it is written with.
-/

namespace EntityQuery.Calendar

open Numeral

variable {ds rest : List Char} {n width : Nat} {f : Fields} {items : List Item} {mark : Char}

/-- The digits of a date are the ASCII digits of the core library. -/
theorem isDecimalDigit_eq (c : Char) : isDecimalDigit c = c.isDigit := by
  rw [isDecimalDigit, digit?_eq]
  cases c.isDigit <;> rfl

/-! ## Digits -/

/-- A run of digits is taken off the front of what does not go on with one. -/
theorem takeDigits_append (each : ∀ c ∈ ds, c.isDigit) (fits : ds.length ≤ width)
    (behind : ∀ c ∈ rest.head?, c.isDigit = false) :
    takeDigits width (ds ++ rest) = (ds, rest) := by
  induction ds generalizing width with
  | nil =>
    rw [List.nil_append]
    cases width with
    | zero => rw [takeDigits]
    | succ width =>
      cases rest with
      | nil => rfl
      | cons c rest =>
        have stop : isDecimalDigit c = false := (isDecimalDigit_eq c).trans (behind c rfl)
        simp only [takeDigits, stop, Bool.false_eq_true, if_false]
  | cons c ds ih =>
    obtain ⟨first, each⟩ := List.forall_mem_cons.mp each
    cases width with
    | zero => cases fits
    | succ width =>
      have digit : isDecimalDigit c = true := (isDecimalDigit_eq c).trans first
      have taken := ih each (Nat.le_of_succ_le_succ fits)
      simp only [List.cons_append, takeDigits, digit, if_true, taken]

/-- A number is read back from its digits, if its field is wide enough and the text does not go on
with a digit. -/
theorem readNumber_digits (h : Digits ds n) (fits : ds.length ≤ width)
    (behind : ∀ c ∈ rest.head?, c.isDigit = false) :
    readNumber width (ds ++ rest) = some (n, rest) := by
  have value := (digitsValue_eq h.each).trans h.value
  rw [readNumber, takeDigits_append h.each fits behind]
  split
  · next none => exact absurd (congrArg Prod.fst none) h.nonempty
  · next taken =>
    cases taken
    rw [value]

/-- The nanoseconds of a text that ends with a fraction of at most nine digits. -/
theorem readNanoseconds_digits (h : Digits ds n) (fits : ds.length ≤ 9) :
    readNanoseconds ds = some (n * Nat.pow 10 (9 - ds.length), []) := by
  have value := (digitsValue_eq h.each).trans h.value
  have taken : takeDigits 9 (ds ++ []) = (ds, []) := takeDigits_append h.each fits nofun
  rw [List.append_nil] at taken
  rw [readNanoseconds, taken]
  split
  · next none => exact absurd (congrArg Prod.fst none) h.nonempty
  · next taken =>
    cases taken
    rw [value]
    rfl

/-! ## Years -/

/-- A year without a sign has four digits at most. A longer run of digits would be split after the
fourth, so this is a hypothesis here, and greater years are written with a sign. -/
theorem readYear_digits (h : Digits ds n) (fits : ds.length ≤ 4)
    (behind : ∀ c ∈ rest.head?, c.isDigit = false) :
    readYear (ds ++ rest) = some (Int.ofNat n, rest) := by
  have number := readNumber_digits h fits behind
  obtain ⟨c, cs, rfl⟩ := List.exists_cons_of_ne_nil h.nonempty
  have first := h.each c List.mem_cons_self
  have unsigned : c ≠ '-' ∧ c ≠ '+' := by
    constructor <;> rintro rfl <;> cases first
  rw [List.cons_append, readYear, ← List.cons_append, number]
  · rfl
  · intro rest same
    exact unsigned.1 (List.cons.inj same).1
  · intro rest same
    exact unsigned.2 (List.cons.inj same).1

/-- Behind a sign a year may have any number of digits. -/
theorem readYear_minus (h : Digits ds n) (behind : ∀ c ∈ rest.head?, c.isDigit = false) :
    readYear ('-' :: (ds ++ rest)) = some (-Int.ofNat n, rest) := by
  rw [readYear, readNumber_digits h (List.length_append ▸ Nat.le_add_right _ _) behind]
  rfl

theorem readYear_plus (h : Digits ds n) (behind : ∀ c ∈ rest.head?, c.isDigit = false) :
    readYear ('+' :: (ds ++ rest)) = some (Int.ofNat n, rest) := by
  rw [readYear, readNumber_digits h (List.length_append ▸ Nat.le_add_right _ _) behind]
  rfl

/-- A year is read back from its text, with whatever sign it has there. -/
theorem readYear_yearText (year : Int) (behind : ∀ c ∈ rest.head?, c.isDigit = false) :
    readYear ((DateTime.yearText year).toList ++ rest) = some (year, rest) := by
  have digits := digits_padded 4 year.natAbs
  rw [DateTime.yearText]
  split
  · next short =>
    have small : year.natAbs < Nat.pow 10 4 := by
      rw [show Nat.pow 10 4 = 10000 from rfl]
      omega
    have back : Int.ofNat year.natAbs = year := Int.natAbs_of_nonneg short.1
    rw [readYear_digits digits (length_padded (by decide) small).le behind, back]
  · rw [String.toList_append]
    by_cases negative : year < 0
    · have back : -Int.ofNat year.natAbs = year := by
        rw [Int.ofNat_eq_natCast]
        omega
      have signed := readYear_minus digits behind
      rw [back] at signed
      rw [if_pos negative]
      exact signed
    · have back : Int.ofNat year.natAbs = year := Int.natAbs_of_nonneg (Int.not_lt.mp negative)
      have signed := readYear_plus digits behind
      rw [back] at signed
      rw [if_neg negative]
      exact signed

/-- A written year has digits and a sign only, so nothing in it is blank or reserved in filters. -/
theorem sign_or_isDigit_of_mem_yearText {year : Int} {c : Char}
    (h : c ∈ (DateTime.yearText year).toList) : (c = '-' ∨ c = '+') ∨ c.isDigit := by
  have digits := digits_padded 4 year.natAbs
  rw [DateTime.yearText] at h
  split at h
  · exact .inr (digits.each c h)
  · rw [String.toList_append] at h
    rcases List.mem_append.mp h with sign | digit
    · refine .inl ?_
      split at sign
      · exact .inl (List.mem_singleton.mp sign)
      · exact .inr (List.mem_singleton.mp sign)
    · exact .inr (digits.each c digit)

theorem solid_yearText (year : Int) : Text.Solid (DateTime.yearText year).toList := by
  constructor
  · intro empty
    have read : readYear ((DateTime.yearText year).toList ++ []) = some (year, []) :=
      readYear_yearText year nofun
    rw [empty] at read
    cases read
  · intro c mem
    rcases sign_or_isDigit_of_mem_yearText mem with (rfl | rfl) | digit
    · decide
    · decide
    · exact isBlank_of_isDigit digit

/-! ## Items -/

/-- A mark of the layout takes itself off the text. -/
theorem readItems_literal :
    readItems (.literal mark :: items) f (mark :: rest) = readItems items f rest := by
  simp only [readItems, Item.read, if_true]

/-- What is behind a mark is not reached by a number in front of it. -/
theorem head?_cons_mark (other : mark.isDigit = false) (rest : List Char) :
    ∀ c ∈ (mark :: rest).head?, c.isDigit = false := by
  rintro c ⟨⟩
  exact other

/-- A year is read up to the mark behind it. -/
theorem readItems_year (year : Int) (other : mark.isDigit = false) :
    readItems (.year :: .literal mark :: items) f
        ((DateTime.yearText year).toList ++ mark :: rest) =
      (f.withYear year).bind (readItems items · rest) := by
  have read := readYear_yearText year (head?_cons_mark other rest)
  rw [readItems]
  simp only [Item.read, (solid_yearText year).dropWhile, read, Option.bind_eq_bind,
    Option.bind_some, Option.pure_def]
  cases f.withYear year with
  | none => rfl
  | some g => exact readItems_literal

/-- A number is read as far as something else than a digit is behind it. -/
theorem Item.read_number {field : NumberField} (h : Digits ds n) (fits : ds.length ≤ field.width)
    (behind : ∀ c ∈ rest.head?, c.isDigit = false) :
    (Item.number field).read f (ds ++ rest) = (f.withNumber field n).map (·, rest) := by
  simp only [Item.read, h.solid.dropWhile, readNumber_digits h fits behind, Option.bind_eq_bind,
    Option.bind_some, Option.pure_def]
  cases f.withNumber field n <;> rfl

/-- A number and the mark behind it are one step of the reading. The mark ends the number, and the
rest of the text is left to the rest of the items. -/
theorem readItems_number {field : NumberField} (h : Digits ds n) (fits : ds.length ≤ field.width)
    (other : mark.isDigit = false) :
    readItems (.number field :: .literal mark :: items) f (ds ++ mark :: rest) =
      (f.withNumber field n).bind (readItems items · rest) := by
  rw [readItems, Item.read_number h fits (head?_cons_mark other rest)]
  cases f.withNumber field n with
  | none => rfl
  | some g => exact readItems_literal

/-- A number and a fraction behind a point, at the end of a text. -/
theorem readItems_fraction {field : NumberField} {fraction : List Char} {k : Nat}
    (h : Digits ds n) (fits : ds.length ≤ field.width) (hk : Digits fraction k)
    (short : fraction.length ≤ 9) :
    readItems [.number field, .fraction] f (ds ++ '.' :: fraction) =
      (f.withNumber field n).bind
        (·.withNumber .nanosecond (k * Nat.pow 10 (9 - fraction.length))) := by
  rw [readItems, Item.read_number h fits (head?_cons_mark rfl fraction)]
  cases f.withNumber field n with
  | none => rfl
  | some g =>
    simp only [Option.map_some, Option.bind_some, readItems, Item.read,
      readNanoseconds_digits hk short, Option.bind_eq_bind, Option.pure_def]
    cases g.withNumber .nanosecond (k * Nat.pow 10 (9 - fraction.length)) <;> rfl

end EntityQuery.Calendar
