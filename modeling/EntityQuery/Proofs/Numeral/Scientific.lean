import EntityQuery.Floating.Text
import EntityQuery.Proofs.Floating.Nearest
import EntityQuery.Proofs.Numeral.Decimal
import Mathlib.Data.List.TakeWhile

/-!
# Numerals with a fraction and an exponent

A decimal numeral is a run of digits, a point among them or not, with an exponent behind it and a
sign in front, of which each may be missing (`Numeral.Denotes`). It denotes a rational number,
however many digits it has. The reader of floating-point numbers splits it into a coefficient and a
power of ten without a loss (`scientific_iff`), rounds these once (`roundsTo_of_read`) and accepts
beside such numerals only words. Without a point and an exponent they are the numerals of integers
(`denotes_plain_iff`).
-/

namespace EntityQuery.Numeral

variable {cs : List Char} {q : ℚ} {z : ℤ}

/-- Digits, with a point among them or not, and the number that they denote. -/
inductive Mantissa : List Char → ℚ → Prop
  | whole {cs : List Char} {n : Nat} (h : Digits cs n) : Mantissa cs n
  | point {whole fraction : List Char} {n : Nat} (h : Digits (whole ++ fraction) n) :
    Mantissa (whole ++ '.' :: fraction) (n / 10 ^ fraction.length)

/-- The exponent of a numeral, which may be missing. -/
inductive Exponent : List Char → ℤ → Prop
  | none : Exponent [] 0
  | marked {mark : Char} {cs : List Char} {z : ℤ} (h : mark = 'e' ∨ mark = 'E')
    (signed : Signed cs z) : Exponent (mark :: cs) z

/-- A numeral without a sign. -/
inductive Scientific : List Char → ℚ → Prop
  | scaled {ms xs : List Char} {m : ℚ} {z : ℤ} (mantissa : Mantissa ms m)
    (exponent : Exponent xs z) : Scientific (ms ++ xs) (m * 10 ^ z)

/-- A decimal numeral, and the rational number that it denotes. -/
inductive Denotes : List Char → ℚ → Prop
  | bare {cs : List Char} {q : ℚ} (h : Scientific cs q) : Denotes cs q
  | plus {cs : List Char} {q : ℚ} (h : Scientific cs q) : Denotes ('+' :: cs) q
  | minus {cs : List Char} {q : ℚ} (h : Scientific cs q) : Denotes ('-' :: cs) (-q)

/-! ## Digits -/

theorem isDigit_eq (c : Char) : isDigit c = c.isDigit := by
  rw [isDigit, digit?_eq]
  cases c.isDigit <;> rfl

theorem digitsValue_eq (each : ∀ c ∈ cs, c.isDigit) :
    digitsValue cs = Nat.ofDigitChars 10 cs 0 := by
  have from_ : ∀ (ds : List Char) (k : Nat), (∀ c ∈ ds, c.isDigit) →
      ds.foldl (fun n c => n * 10 + (digit? c).getD 0) k = Nat.ofDigitChars 10 ds k := by
    intro ds
    induction ds with
    | nil => exact fun _ _ => rfl
    | cons c ds ih =>
      intro k hds
      obtain ⟨first, rest⟩ := List.forall_mem_cons.mp hds
      rw [List.foldl_cons, Nat.ofDigitChars_cons, ih _ rest, digit?_eq, if_pos first, Nat.mul_comm]
      rfl
  exact from_ cs 0 each

theorem digits_iff {n : Nat} :
    Digits cs n ↔ (cs ≠ [] ∧ cs.all isDigit) ∧ digitsValue cs = n := by
  have each : cs.all isDigit ↔ ∀ c ∈ cs, c.isDigit := by
    simp only [List.all_eq_true, isDigit_eq]
  rw [each]
  constructor
  · intro h
    exact ⟨⟨h.nonempty, h.each⟩, (digitsValue_eq h.each).trans h.value⟩
  · rintro ⟨⟨nonempty, digits⟩, value⟩
    exact ⟨nonempty, digits, (digitsValue_eq digits).symm.trans value⟩

/-- A run of digits is taken off the front of what does not go on with one. -/
theorem takeWhile_digits {ds rest : List Char} (each : ∀ c ∈ ds, c.isDigit)
    (behind : ∀ c ∈ rest.head?, c.isDigit = false) :
    (ds ++ rest).takeWhile isDigit = ds ∧ (ds ++ rest).dropWhile isDigit = rest := by
  have digits : ∀ c ∈ ds, isDigit c := fun c hc => (isDigit_eq c).trans (each c hc)
  rw [List.takeWhile_append_of_pos digits, List.dropWhile_append_of_pos digits]
  cases rest with
  | nil => simp
  | cons c rest =>
    have stop : ¬isDigit c = true := by
      rw [isDigit_eq, behind c rfl]
      exact Bool.false_ne_true
    rw [List.takeWhile_cons_of_neg stop, List.dropWhile_cons_of_neg stop, List.append_nil]
    exact ⟨rfl, rfl⟩

/-! ## The parts of a numeral -/

theorem exponent_cons_iff {c : Char} :
    Exponent (c :: cs) z ↔ (c = 'e' ∨ c = 'E') ∧ Signed cs z := by
  constructor
  · intro h
    cases h with
    | marked mark signed => exact ⟨mark, signed⟩
  · exact fun h => .marked h.1 h.2

/-- The digits of an exponent are read with their sign. -/
theorem digitsOf_eq_some_iff (signed : Nat → ℤ) :
    (if cs ≠ [] ∧ cs.all isDigit then some (signed (digitsValue cs)) else none) = some z ↔
      ∃ n, Digits cs n ∧ signed n = z := by
  simp only [digits_iff]
  split
  · next digits => simp [digits]
  · next other => exact iff_of_false nofun fun ⟨_, ⟨digits, _⟩, _⟩ => other digits

/-- The reader takes exactly the exponents, and an absent one as zero. -/
theorem readExponent?_eq_some_iff : readExponent? cs = some z ↔ Exponent cs z := by
  match cs with
  | [] =>
    constructor
    · intro h
      cases h
      exact .none
    · intro h
      cases h
      rfl
  | c :: cs =>
    rw [exponent_cons_iff]
    unfold readExponent?
    dsimp only
    by_cases mark : c = 'e' ∨ c = 'E'
    · rw [if_pos mark, and_iff_right mark]
      split
      · rw [signed_minus_iff]
        exact digitsOf_eq_some_iff fun n => -Int.ofNat n
      · rw [signed_iff_unsigned (by simp)]
        simp only [unsigned_plus_iff]
        exact digitsOf_eq_some_iff Int.ofNat
      · next minus plus =>
        rw [signed_iff_unsigned minus]
        simp only [unsigned_iff_digits plus]
        exact digitsOf_eq_some_iff Int.ofNat
    · rw [if_neg mark]
      exact iff_of_false nofun fun h => mark h.1

/-- What follows the digits of a numeral does not go on with one, or with a point. -/
theorem head_of_exponent (h : Exponent cs z) :
    (∀ c ∈ cs.head?, c.isDigit = false) ∧ ∀ rest, cs ≠ '.' :: rest := by
  cases h with
  | none => exact ⟨nofun, nofun⟩
  | marked mark signed =>
    constructor
    · intro c hc
      cases hc
      rcases mark with rfl | rfl <;> rfl
    · intro rest same
      cases same
      rcases mark with mark | mark <;> cases mark

/-- With a point the digits in front of it and behind it are one number, and the place of the point
goes into the exponent. -/
theorem readDecimal?_of_point {rest : List Char} (point : cs.dropWhile isDigit = '.' :: rest) :
    readDecimal? cs =
      if cs.takeWhile isDigit ++ rest.takeWhile isDigit = [] then none
      else (readExponent? (rest.dropWhile isDigit)).map fun e : ℤ =>
        (digitsValue (cs.takeWhile isDigit ++ rest.takeWhile isDigit),
          e - (rest.takeWhile isDigit).length) := by
  unfold readDecimal?
  rw [point]
  rfl

/-- Without a point the digits in front of the exponent are the number. -/
theorem readDecimal?_of_whole (noPoint : ∀ rest, cs.dropWhile isDigit ≠ '.' :: rest) :
    readDecimal? cs =
      if cs.takeWhile isDigit = [] then none
      else (readExponent? (cs.dropWhile isDigit)).map fun e =>
        (digitsValue (cs.takeWhile isDigit), e) := by
  unfold readDecimal?
  dsimp only
  split
  · next point => exact absurd point (noPoint _)
  · simp

/-- A numeral is read as its value, as a whole number and a power of ten. -/
theorem readDecimal?_of_scientific (h : Scientific cs q) :
    ∃ k x, readDecimal? cs = some (k, x) ∧ (k * 10 ^ x : ℚ) = q := by
  cases h with
  | @scaled ms xs m z mantissa exponent =>
    obtain ⟨noDigit, noPoint⟩ := head_of_exponent exponent
    have read := readExponent?_eq_some_iff.mpr exponent
    cases mantissa with
    | @whole _ n digits =>
      obtain ⟨taken, dropped⟩ := takeWhile_digits digits.each noDigit
      refine ⟨n, z, ?_, rfl⟩
      rw [readDecimal?_of_whole (by rwa [dropped]), taken, dropped, if_neg digits.nonempty, read,
        (digits_iff.mp digits).2]
      rfl
    | @point whole fraction n digits =>
      have behind : ∀ c ∈ ('.' :: (fraction ++ xs)).head?, c.isDigit = false := by
        intro c hc
        cases hc
        rfl
      obtain ⟨taken, dropped⟩ :=
        takeWhile_digits (fun c hc => digits.each c (List.mem_append_left _ hc)) behind
      obtain ⟨taken', dropped'⟩ :=
        takeWhile_digits (fun c hc => digits.each c (List.mem_append_right _ hc)) noDigit
      refine ⟨n, z - fraction.length, ?_, ?_⟩
      · rw [List.append_assoc, List.cons_append, readDecimal?_of_point dropped, taken, taken',
          dropped', if_neg digits.nonempty, read, (digits_iff.mp digits).2]
        rfl
      · rw [zpow_sub₀ (by norm_num), zpow_natCast]
        ring

theorem digits_takeWhile {ds : List Char} (h : cs.takeWhile isDigit ++ ds.takeWhile isDigit ≠ []) :
    Digits (cs.takeWhile isDigit ++ ds.takeWhile isDigit)
      (digitsValue (cs.takeWhile isDigit ++ ds.takeWhile isDigit)) := by
  refine digits_iff.mpr ⟨⟨h, ?_⟩, rfl⟩
  rw [List.all_append, List.all_takeWhile, List.all_takeWhile]
  rfl

/-- Whatever is read is a numeral of its value. With `readDecimal?_of_scientific` this says which
texts are numbers. -/
theorem scientific_of_readDecimal? {k : Nat} {x : ℤ} (h : readDecimal? cs = some (k, x)) :
    Scientific cs (k * 10 ^ x) := by
  have parts := List.takeWhile_append_dropWhile (p := isDigit) (l := cs)
  by_cases point : ∃ rest, cs.dropWhile isDigit = '.' :: rest
  · obtain ⟨rest, point⟩ := point
    rw [readDecimal?_of_point point] at h
    split at h
    · cases h
    · next nonempty =>
      obtain ⟨z, read, same⟩ := Option.map_eq_some_iff.mp h
      cases same
      have scaled := Scientific.scaled (.point (digits_takeWhile nonempty))
        (readExponent?_eq_some_iff.mp read)
      rw [List.append_assoc, List.cons_append, List.takeWhile_append_dropWhile, ← point, parts]
        at scaled
      rw [zpow_sub₀ (by norm_num), zpow_natCast]
      convert scaled using 1
      ring
  · rw [readDecimal?_of_whole (not_exists.mp point)] at h
    split at h
    · cases h
    · next nonempty =>
      obtain ⟨z, read, same⟩ := Option.map_eq_some_iff.mp h
      cases same
      have digits := @digits_takeWhile cs [] (by simpa using nonempty)
      rw [List.takeWhile_nil, List.append_nil] at digits
      have scaled := Scientific.scaled (.whole digits) (readExponent?_eq_some_iff.mp read)
      rwa [parts] at scaled

/-- A numeral is read as the coefficient and the power of ten that make its number. -/
theorem scientific_iff :
    Scientific cs q ↔ ∃ k x, readDecimal? cs = some (k, x) ∧ (k * 10 ^ x : ℚ) = q := by
  constructor
  · exact readDecimal?_of_scientific
  · intro ⟨k, x, read, value⟩
    exact value ▸ scientific_of_readDecimal? read

/-! ## Numerals of integers -/

/-- A character is one of those that make a point or an exponent. -/
def Plain (cs : List Char) : Prop := ∀ c ∈ cs, c ≠ '.' ∧ c ≠ 'e' ∧ c ≠ 'E'

/-- Without a point and an exponent numerals are runs of digits. -/
theorem scientific_plain_iff (plain : Plain cs) :
    Scientific cs q ↔ ∃ n : Nat, Digits cs n ∧ (n : ℚ) = q := by
  constructor
  · intro h
    cases h with
    | @scaled ms xs m z mantissa exponent =>
      cases exponent with
      | none =>
        cases mantissa with
        | @whole _ n digits => exact ⟨n, by simpa using digits, by simp⟩
        | point => exact absurd rfl (plain '.' (by simp)).1
      | @marked mark cs z h =>
        have := plain mark (by simp)
        rcases h with rfl | rfl <;> simp at this
  · intro ⟨n, digits, value⟩
    have scaled := Scientific.scaled (.whole digits) .none
    rwa [List.append_nil, zpow_zero, mul_one, value] at scaled

/-- Without a point and an exponent, the numerals are those of integers. -/
theorem denotes_plain_iff (plain : Plain cs) :
    Denotes cs q ↔ ∃ z : ℤ, Signed cs z ∧ (z : ℚ) = q := by
  constructor
  · intro h
    cases h with
    | bare h =>
      obtain ⟨n, digits, rfl⟩ := (scientific_plain_iff plain).mp h
      exact ⟨n, .unsigned (.bare digits), Int.cast_natCast n⟩
    | plus h =>
      obtain ⟨n, digits, rfl⟩ := (scientific_plain_iff (List.forall_mem_cons.mp plain).2).mp h
      exact ⟨n, .unsigned (.plus digits), Int.cast_natCast n⟩
    | minus h =>
      obtain ⟨n, digits, rfl⟩ := (scientific_plain_iff (List.forall_mem_cons.mp plain).2).mp h
      exact ⟨-n, .minus digits, by rw [Int.cast_neg, Int.cast_natCast]⟩
  · intro ⟨z, signed, value⟩
    rw [← value]
    cases signed with
    | @unsigned _ n unsigned =>
      rw [Int.cast_natCast]
      cases unsigned with
      | bare digits => exact .bare ((scientific_plain_iff plain).mpr ⟨n, digits, rfl⟩)
      | plus digits =>
        exact .plus ((scientific_plain_iff (List.forall_mem_cons.mp plain).2).mpr ⟨n, digits, rfl⟩)
    | @minus _ n digits =>
      rw [Int.cast_neg, Int.cast_natCast]
      exact .minus ((scientific_plain_iff (List.forall_mem_cons.mp plain).2).mpr ⟨n, digits, rfl⟩)

/-! ## Reading at a precision -/

/-- There is a digit in every numeral, so `inf` and `nan` are none. The reader knows these words
too, but a numeral never gets there. -/
theorem exists_digit_of_scientific (h : Scientific cs q) : ∃ c ∈ cs, c.isDigit := by
  have first : ∀ {ds : List Char} {n : Nat}, Digits ds n → ∃ c ∈ ds, c.isDigit := by
    intro ds n digits
    obtain ⟨c, hc⟩ := List.exists_mem_of_ne_nil ds digits.nonempty
    exact ⟨c, hc, digits.each c hc⟩
  cases h with
  | scaled mantissa exponent =>
    cases mantissa with
    | whole digits =>
      obtain ⟨c, hc, digit⟩ := first digits
      exact ⟨c, List.mem_append_left _ hc, digit⟩
    | point digits =>
      obtain ⟨c, hc, digit⟩ := first digits
      refine ⟨c, List.mem_append_left _ ?_, digit⟩
      rcases List.mem_append.mp hc with hc | hc
      · exact List.mem_append_left _ hc
      · exact List.mem_append_right _ (List.mem_cons_of_mem _ hc)

/-- A numeral is no word. -/
theorem map_toLower_ne_of_scientific (h : Scientific cs q) {word : List Char}
    (letters : ∀ c ∈ word, c.isDigit = false) : cs.map Char.toLower ≠ word := by
  intro same
  obtain ⟨c, hc, digit⟩ := exists_digit_of_scientific h
  have lower : c.toLower = c := by
    rw [Char.isDigit_iff_toNat] at digit
    unfold Char.toLower
    refine dif_neg fun upper => ?_
    have above : 65 ≤ c.toNat := upper.1
    have nine : '9'.toNat = 57 := rfl
    omega
  have mem : c ∈ word := same ▸ List.mem_map.mpr ⟨c, hc, lower⟩
  exact Bool.false_ne_true ((letters c mem).symm.trans digit)

/-- A numeral without a sign begins with a digit or a point. -/
theorem head_of_scientific (h : Scientific cs q) :
    ∃ c rest, cs = c :: rest ∧ (c.isDigit ∨ c = '.') := by
  cases h with
  | @scaled ms xs m z mantissa exponent =>
    cases mantissa with
    | whole digits =>
      obtain ⟨c, ds, rfl⟩ := List.exists_cons_of_ne_nil digits.nonempty
      exact ⟨c, ds ++ xs, rfl, .inl (digits.each c List.mem_cons_self)⟩
    | @point whole fraction n digits =>
      match whole with
      | [] => exact ⟨'.', fraction ++ xs, rfl, .inr rfl⟩
      | c :: ds => exact ⟨c, _, rfl, .inl (digits.each c List.mem_cons_self)⟩

theorem not_scientific_of_sign {c : Char} (h : c = '+' ∨ c = '-') : ¬Scientific (c :: cs) q := by
  intro scientific
  obtain ⟨d, rest, same, first⟩ := head_of_scientific scientific
  cases same
  rcases h with rfl | rfl
  · rcases first with first | first <;> cases first
  · rcases first with first | first <;> cases first

/-- A numeral has one value, wherever its point is put. -/
theorem Scientific.unique {r : ℚ} (h : Scientific cs q) (h' : Scientific cs r) : q = r := by
  obtain ⟨k, x, read, rfl⟩ := scientific_iff.mp h
  obtain ⟨k', x', read', rfl⟩ := scientific_iff.mp h'
  cases read.symm.trans read'
  rfl

/-- A numeral denotes one number. -/
theorem Denotes.unique {r : ℚ} (h : Denotes cs q) (h' : Denotes cs r) : q = r := by
  cases h with
  | bare h =>
    cases h' with
    | bare h' => exact h.unique h'
    | plus => exact absurd h (not_scientific_of_sign (.inl rfl))
    | minus => exact absurd h (not_scientific_of_sign (.inr rfl))
  | plus h =>
    cases h' with
    | bare h' => exact absurd h' (not_scientific_of_sign (.inl rfl))
    | plus h' => exact h.unique h'
  | minus h =>
    cases h' with
    | bare h' => exact absurd h' (not_scientific_of_sign (.inr rfl))
    | minus h' => rw [h.unique h']

section

open Floating (sign RoundsTo)

variable {p : Precision} {s : Bool} {y : Floating} {w : ℚ}

/-- A numeral is rounded once, from its exact value. -/
theorem readUnsigned?_of_scientific (h : Scientific cs q) (p : Precision) (s : Bool) :
    ∃ k x, Floating.readUnsigned? p s cs = some (Floating.ofDecimal p s k x) ∧
      (k * 10 ^ x : ℚ) = q := by
  obtain ⟨k, x, read, value⟩ := scientific_iff.mp h
  refine ⟨k, x, ?_, value⟩
  have noWord : ∀ word : List Char, (∀ c ∈ word, c.isDigit = false) →
      ¬cs.map Char.toLower = word :=
    fun word letters => map_toLower_ne_of_scientific h letters
  unfold Floating.readUnsigned?
  dsimp only
  rw [if_neg (noWord _ (by simp)),
    if_neg (not_or.mpr ⟨noWord _ (by simp), noWord _ (by simp)⟩), read]
  rfl

theorem scientific_of_readUnsigned? (h : Floating.readUnsigned? p s cs = some y)
    (finite : y.isFinite) :
    ∃ k x, y = Floating.ofDecimal p s k x ∧ Scientific cs (k * 10 ^ x) := by
  unfold Floating.readUnsigned? at h
  dsimp only at h
  split at h
  · cases h
    cases finite
  · split at h
    · cases h
      cases finite
    · obtain ⟨⟨k, x⟩, read, rfl⟩ := Option.map_eq_some_iff.mp h
      exact ⟨k, x, rfl, scientific_iff.mpr ⟨k, x, read, rfl⟩⟩

/-- A numeral of moderate size is read as the rounded number. Sign, digits and exponent make up one
decimal, which is rounded once. -/
theorem exists_read (h : Denotes cs q) (moderate : |q| ≤ 2 ^ p.maxExponent) :
    ∃ y w, Floating.read p cs = .ok y ∧ y.value? = some w ∧ RoundsTo p q w := by
  have rounded : ∀ {s : Bool} {k : Nat} {x : ℤ}, sign s * (k * 10 ^ x : ℚ) = q →
      ∃ w, (Floating.ofDecimal p s k x).value? = some w ∧ RoundsTo p q w := by
    intro s k x same
    rw [← same, Floating.abs_sign_mul] at moderate
    obtain ⟨w, value⟩ := Floating.exists_ofDecimal_value? (s := s) ((le_abs_self _).trans moderate)
    exact ⟨w, value, same ▸ Floating.ofDecimal_roundsTo value⟩
  cases h with
  | bare h =>
    obtain ⟨k, x, read, same⟩ := readUnsigned?_of_scientific h p false
    obtain ⟨w, value, rounds⟩ := rounded (s := false) (by simpa [sign] using same)
    refine ⟨_, w, ?_, value, rounds⟩
    unfold Floating.read
    split
    · obtain ⟨c, rest, same, -⟩ := head_of_scientific h
      cases same
    · exact absurd h (not_scientific_of_sign (.inl rfl))
    · exact absurd h (not_scientific_of_sign (.inr rfl))
    · rw [read]
      rfl
  | plus h =>
    obtain ⟨k, x, read, same⟩ := readUnsigned?_of_scientific h p false
    obtain ⟨w, value, rounds⟩ := rounded (s := false) (by simpa [sign] using same)
    refine ⟨_, w, ?_, value, rounds⟩
    rw [Floating.read, read]
    rfl
  | minus h =>
    obtain ⟨k, x, read, same⟩ := readUnsigned?_of_scientific h p true
    obtain ⟨w, value, rounds⟩ := rounded (s := true) (by simpa [sign] using same)
    refine ⟨_, w, ?_, value, rounds⟩
    rw [Floating.read, read]
    rfl

/-- What is read as a finite number is a numeral, and its number is rounded. -/
theorem roundsTo_of_read (h : Floating.read p cs = .ok y) (value : y.value? = some w) :
    ∃ q, Denotes cs q ∧ RoundsTo p q w := by
  have unsigned : ∀ {s : Bool} {ds : List Char},
      (Floating.readUnsigned? p s ds).elim (.error FloatingFault.invalid) Except.ok = .ok y →
        ∃ q, Scientific ds q ∧ RoundsTo p (sign s * q) w := by
    intro s ds hds
    cases read : Floating.readUnsigned? p s ds with
    | none =>
      rw [read] at hds
      cases hds
    | some y' =>
      rw [read] at hds
      cases hds
      obtain ⟨k, x, rfl, scientific⟩ :=
        scientific_of_readUnsigned? read (Floating.isFinite_of_value? value)
      exact ⟨_, scientific, Floating.ofDecimal_roundsTo value⟩
  unfold Floating.read at h
  split at h
  · cases h
  · obtain ⟨q, scientific, rounds⟩ := unsigned h
    exact ⟨q, .plus scientific, by simpa [sign] using rounds⟩
  · obtain ⟨q, scientific, rounds⟩ := unsigned h
    exact ⟨-q, .minus scientific, by simpa [sign] using rounds⟩
  · obtain ⟨q, scientific, rounds⟩ := unsigned h
    exact ⟨q, .bare scientific, by simpa [sign] using rounds⟩

end

end EntityQuery.Numeral
