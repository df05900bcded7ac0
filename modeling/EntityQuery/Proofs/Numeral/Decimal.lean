import EntityQuery.Numeral.Integer
import EntityQuery.Proofs.Failure
import EntityQuery.Proofs.Text.Blank

/-!
# Decimal numerals

The readers of integers accept exactly the numerals of integers in their bounds: a run of decimal
digits, leading zeros included, behind a sign where one is allowed (`readUInt64_eq_ok`,
`readInt64_eq_ok`). The decimal form of an integer is such a numeral, so it is read back as that
integer.
-/

namespace EntityQuery.Numeral

variable {cs : List Char} {n : Nat} {limit : Nat} {beyond : IntegerFault}

/-- A run of decimal digits, and the number that it denotes. -/
structure Digits (cs : List Char) (n : Nat) : Prop where
  nonempty : cs ≠ []
  each : ∀ c ∈ cs, c.isDigit
  value : Nat.ofDigitChars 10 cs 0 = n

/-- A run of digits, a plus sign in front of it or not. -/
inductive Unsigned : List Char → Nat → Prop
  | bare {cs : List Char} {n : Nat} (h : Digits cs n) : Unsigned cs n
  | plus {cs : List Char} {n : Nat} (h : Digits cs n) : Unsigned ('+' :: cs) n

/-- A run of digits, with either sign in front of it or none. -/
inductive Signed : List Char → Int → Prop
  | unsigned {cs : List Char} {n : Nat} (h : Unsigned cs n) : Signed cs n
  | minus {cs : List Char} {n : Nat} (h : Digits cs n) : Signed ('-' :: cs) (-n)

/-- The signed integers of 64 bits. -/
def FitsInt64 (z : Int) : Prop := -(greatestInt64 + 1) ≤ z ∧ z ≤ greatestInt64

/-! ## Digits -/

theorem digit?_eq (c : Char) :
    digit? c = if c.isDigit then some (c.toNat - '0'.toNat) else none := by
  have same : ('0' ≤ c ∧ c ≤ '9') ↔ c.isDigit := by
    rw [Char.isDigit, Bool.and_eq_true, decide_eq_true_iff, decide_eq_true_iff]
    rfl
  rw [digit?]
  exact if_congr same rfl rfl

theorem isBlank_of_isDigit {c : Char} (h : c.isDigit) : Text.isBlank c = false := by
  rw [Char.isDigit_iff_toNat] at h
  simp only [Text.isBlank, Text.blankRanges, Text.inRanges]
  grind

/-- Digits have no blanks among them. -/
theorem Digits.solid (h : Digits cs n) : Text.Solid cs :=
  ⟨h.nonempty, fun c mem => isBlank_of_isDigit (h.each c mem)⟩

theorem le_ofDigitChars (cs : List Char) (n : Nat) : n ≤ Nat.ofDigitChars 10 cs n := by
  rw [Nat.ofDigitChars_eq_ofDigitChars_zero]
  exact Nat.le_add_right_of_le (Nat.le_mul_of_pos_left n (Nat.pow_pos (by decide)))

/-- Digits are appended as long as the number that they lead to is within the limit. -/
theorem appendDigits_eq_ok {value : Nat} (within : value ≤ limit) :
    appendDigits limit beyond value cs = .ok n ↔
      (∀ c ∈ cs, c.isDigit) ∧ Nat.ofDigitChars 10 cs value = n ∧ n ≤ limit := by
  induction cs generalizing value with
  | nil =>
    rw [appendDigits, Nat.ofDigitChars_nil, Except.ok.injEq]
    constructor
    · rintro rfl
      exact ⟨fun c hc => (by cases hc), rfl, within⟩
    · exact fun h => h.2.1
  | cons c cs ih =>
    rw [appendDigits, digit?_eq, List.forall_mem_cons, Nat.ofDigitChars_cons, Nat.mul_comm 10]
    by_cases digit : c.isDigit
    · simp only [digit, if_true, true_and]
      split
      · next h => exact ih h
      · next h =>
        refine iff_of_false (by rintro ⟨⟩) ?_
        rintro ⟨-, rfl, bounded⟩
        exact h (Nat.le_trans (le_ofDigitChars cs _) bounded)
    · simp [digit]

/-- A magnitude is read of digits, and of nothing else, as long as it stays within its limit. The
limit is checked digit by digit, and this is no different from checking it in the end. -/
theorem readMagnitude_eq_ok :
    readMagnitude limit beyond cs = .ok n ↔ Digits cs n ∧ n ≤ limit := by
  cases cs with
  | nil => exact iff_of_false (by rintro ⟨⟩) fun h => h.1.nonempty rfl
  | cons c cs =>
    rw [readMagnitude, appendDigits_eq_ok (Nat.zero_le limit)]
    · exact ⟨fun ⟨each, value, within⟩ => ⟨⟨List.cons_ne_nil c cs, each, value⟩, within⟩,
        fun ⟨h, within⟩ => ⟨h.each, h.value, within⟩⟩
    · exact List.cons_ne_nil c cs

theorem not_digits_of_head {c : Char} (h : c.isDigit = false) : ¬ Digits (c :: cs) n :=
  fun digits => Bool.eq_false_iff.mp h (digits.each c List.mem_cons_self)

/-- A numeral consists of digits, but for a sign. -/
theorem Unsigned.eq_plus_or_isDigit (h : Unsigned cs n) : ∀ c ∈ cs, c = '+' ∨ c.isDigit := by
  intro c mem
  cases h with
  | bare h => exact .inr (h.each c mem)
  | plus h => exact (List.mem_cons.mp mem).imp_right (h.each c)

theorem Unsigned.nonempty (h : Unsigned cs n) : cs ≠ [] := by
  cases h with
  | bare h => exact h.nonempty
  | plus h => exact List.cons_ne_nil _ _

theorem Unsigned.not_mem {c : Char} (h : Unsigned cs n) (sign : c ≠ '+')
    (digit : c.isDigit = false) : c ∉ cs :=
  fun mem => (h.eq_plus_or_isDigit c mem).elim sign (Bool.eq_false_iff.mp digit)

/-- One plus sign may stand in front. -/
theorem unsigned_plus_iff : Unsigned ('+' :: cs) n ↔ Digits cs n := by
  constructor
  · rintro (h | h)
    · exact absurd h (not_digits_of_head rfl)
    · exact h
  · exact .plus

theorem unsigned_iff_digits (h : ∀ rest, cs ≠ '+' :: rest) : Unsigned cs n ↔ Digits cs n := by
  constructor
  · rintro (digits | digits)
    · exact digits
    · exact absurd rfl (h _)
  · exact .bare

/-- Without a minus sign a signed number is an unsigned one. -/
theorem signed_iff_unsigned (h : ∀ rest, cs ≠ '-' :: rest) {z : Int} :
    Signed cs z ↔ ∃ n : Nat, Unsigned cs n ∧ n = z := by
  constructor
  · rintro (unsigned | digits)
    · exact ⟨_, unsigned, rfl⟩
    · exact absurd rfl (h _)
  · rintro ⟨n, unsigned, rfl⟩
    exact .unsigned unsigned

/-- Behind a minus sign there are digits, and no second sign. -/
theorem signed_minus_iff {z : Int} :
    Signed ('-' :: cs) z ↔ ∃ n : Nat, Digits cs n ∧ -(n : Int) = z := by
  constructor
  · rintro (unsigned | digits)
    · exact absurd ((unsigned_iff_digits (by simp)).mp unsigned) (not_digits_of_head rfl)
    · exact ⟨_, digits, rfl⟩
  · rintro ⟨n, digits, rfl⟩
    exact .minus digits

/-- Digits have one value. -/
theorem Digits.unique {m : Nat} (h : Digits cs m) (h' : Digits cs n) : m = n :=
  h.value.symm.trans h'.value

/-- A numeral denotes one integer. -/
theorem Signed.unique {y z : Int} (h : Signed cs y) (h' : Signed cs z) : y = z := by
  cases h with
  | minus h =>
    obtain ⟨n, digits, rfl⟩ := signed_minus_iff.mp h'
    rw [h.unique digits]
  | unsigned h =>
    cases h with
    | plus h =>
      obtain ⟨n, plus, rfl⟩ := (signed_iff_unsigned (by simp)).mp h'
      rw [h.unique (unsigned_plus_iff.mp plus)]
    | bare h =>
      have noSign {c : Char} (sign : c.isDigit = false) (rest : List Char) : cs ≠ c :: rest := by
        rintro rfl
        exact not_digits_of_head sign h
      obtain ⟨n, bare, rfl⟩ := (signed_iff_unsigned (noSign rfl)).mp h'
      rw [h.unique ((unsigned_iff_digits (noSign rfl)).mp bare)]

/-- Only the first character of a numeral can be a sign. -/
theorem Signed.isDigit_of_mem_tail {z : Int} (h : Signed cs z) : ∀ c ∈ cs.tail, c.isDigit := by
  cases h with
  | minus h => exact h.each
  | unsigned h =>
    cases h with
    | plus h => exact h.each
    | bare h => exact fun c mem => h.each c (List.mem_of_mem_tail mem)

/-! ## Readers -/

theorem map_ofNat_eq_ok {i : UInt64} :
    (readMagnitude (UInt64.size - 1) beyond cs).map UInt64.ofNat = .ok i ↔ Digits cs i.toNat := by
  simp only [map_eq_ok, readMagnitude_eq_ok]
  constructor
  · rintro ⟨n, ⟨digits, within⟩, rfl⟩
    rwa [UInt64.toNat_ofNat_of_lt' (Nat.lt_of_le_pred (by decide) within)]
  · intro digits
    exact ⟨i.toNat, ⟨digits, Nat.le_pred_of_lt i.toNat_lt_size⟩, UInt64.ofNat_toNat⟩

/-- Reading a 64-bit number without a sign is exactly reading its numerals. -/
theorem readUInt64_eq_ok {i : UInt64} : readUInt64 cs = .ok i ↔ Unsigned cs i.toNat := by
  unfold readUInt64
  split
  · exact iff_of_false (by rintro ⟨⟩) fun
      | .bare h => h.nonempty rfl
  · rw [map_ofNat_eq_ok, unsigned_plus_iff]
  · next unsigned => rw [map_ofNat_eq_ok, unsigned_iff_digits fun rest => unsigned rest]

theorem fitsInt64_ofNat (n : Nat) : FitsInt64 (Int.ofNat n) ↔ n ≤ greatestInt64 := by
  rw [FitsInt64, Int.ofNat_eq_natCast]
  omega

theorem fitsInt64_neg_ofNat (n : Nat) : FitsInt64 (-Int.ofNat n) ↔ n ≤ greatestInt64 + 1 := by
  rw [FitsInt64, Int.ofNat_eq_natCast]
  omega

/-- Digits with a sign are read when the limit for them is the bound on this side of zero. -/
theorem map_eq_ok_of_fits {signed : Nat → Int} {z : Int}
    (fits : ∀ n, FitsInt64 (signed n) ↔ n ≤ limit) :
    (readMagnitude limit beyond cs).map signed = .ok z ↔
      (∃ n, Digits cs n ∧ signed n = z) ∧ FitsInt64 z := by
  simp only [map_eq_ok, readMagnitude_eq_ok]
  constructor
  · rintro ⟨n, ⟨digits, within⟩, rfl⟩
    exact ⟨⟨n, digits, rfl⟩, (fits n).mpr within⟩
  · rintro ⟨⟨n, digits, rfl⟩, bounded⟩
    exact ⟨n, ⟨digits, (fits n).mp bounded⟩, rfl⟩

/-- Reading a signed one is reading its numerals, if the value fits. The least number has no
positive counterpart, so the limits of the two signs differ. -/
theorem readInt64_eq_ok {z : Int} : readInt64 cs = .ok z ↔ Signed cs z ∧ FitsInt64 z := by
  unfold readInt64
  split
  · exact iff_of_false (by rintro ⟨⟩) fun
      | ⟨.unsigned (.bare h), _⟩ => h.nonempty rfl
  · rw [map_eq_ok_of_fits fitsInt64_ofNat, signed_iff_unsigned (by simp)]
    simp only [unsigned_plus_iff, Int.ofNat_eq_natCast]
  · rw [map_eq_ok_of_fits fitsInt64_neg_ofNat, signed_minus_iff]
    simp only [Int.ofNat_eq_natCast]
  · next plain unsigned =>
    rw [map_eq_ok_of_fits fitsInt64_ofNat, signed_iff_unsigned fun rest => unsigned rest]
    simp only [unsigned_iff_digits fun rest => plain rest, Int.ofNat_eq_natCast]

/-! ## The decimal form -/

/-- The digits that a number is written with are digits of this number. -/
theorem digits_toDigits (n : Nat) : Digits (Nat.toDigits 10 n) n :=
  ⟨Nat.toDigits_ne_nil, fun _ => Nat.isDigit_of_mem_toDigits (by decide) (by decide),
    Nat.ofDigitChars_ten_toDigits⟩

/-- Zeros in front change neither that there are digits nor what they denote. -/
theorem digits_padded (width n : Nat) : Digits (padded width n).toList n := by
  have plain := digits_toDigits n
  rw [padded, String.toList_ofList]
  refine ⟨List.append_ne_nil_of_right_ne_nil _ plain.nonempty, ?_, ?_⟩
  · have zeros : ∀ c ∈ List.replicate (width - (Nat.toDigits 10 n).length) '0', c.isDigit := by
      intro c mem
      rw [List.eq_of_mem_replicate mem]
      rfl
    exact List.forall_mem_append.mpr ⟨zeros, plain.each⟩
  · rw [Nat.ofDigitChars_append, Nat.ofDigitChars_replicate_zero, Nat.mul_zero]
    exact plain.value

theorem length_padded {width : Nat} (pos : 0 < width) (h : n < Nat.pow 10 width) :
    (padded width n).toList.length = width := by
  have short := (Nat.length_toDigits_le_iff (by decide) pos).mpr h
  rw [padded, String.toList_ofList, List.length_append, List.length_replicate]
  exact Nat.sub_add_cancel short

theorem toList_padded_one (n : Nat) : (padded 1 n).toList = Nat.toDigits 10 n := by
  rw [padded, String.toList_ofList, Nat.sub_eq_zero_of_le Nat.length_toDigits_pos]
  rfl

/-- The decimal form of an integer is a numeral of it. -/
theorem signed_decimal (z : Int) : Signed (decimal z).toList z := by
  rw [decimal]
  split
  · next negative =>
    rw [String.toList_append, toList_padded_one]
    have abs : -(z.natAbs : Int) = z := by omega
    exact signed_minus_iff.mpr ⟨z.natAbs, digits_toDigits _, abs⟩
  · next nonneg =>
    rw [toList_padded_one]
    have abs : (z.natAbs : Int) = z := by omega
    exact abs ▸ .unsigned (.bare (digits_toDigits _))

/-- A written integer is read back. -/
theorem readInt64_decimal {z : Int} (h : FitsInt64 z) : readInt64 (decimal z).toList = .ok z :=
  readInt64_eq_ok.mpr ⟨signed_decimal z, h⟩

theorem toList_decimal_natCast (n : Nat) : (decimal n).toList = Nat.toDigits 10 n := by
  rw [decimal, if_neg (Int.not_lt.mpr (Int.natCast_nonneg n)), toList_padded_one]
  rfl

theorem unsigned_decimal (n : Nat) : Unsigned (decimal n).toList n := by
  rw [toList_decimal_natCast]
  exact .bare (digits_toDigits n)

end EntityQuery.Numeral
