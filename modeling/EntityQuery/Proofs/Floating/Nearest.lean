import EntityQuery.Floating.Rounding
import Mathlib.Algebra.Order.Field.Power
import Mathlib.Data.Rat.Cast.Order
import Mathlib.Tactic.FieldSimp
import Mathlib.Tactic.Linarith
import Mathlib.Tactic.NormNum
import Mathlib.Tactic.Positivity
import Mathlib.Tactic.Ring

/-!
# Rounding to the nearest number

The numbers that a precision has are rational numbers (`Floating.Representable`). What is rounded to
a precision becomes one of them than which none is nearer (`Floating.RoundsTo`): a ratio
(`nearest_roundsTo`) and a decimal (`ofDecimal_roundsTo`), as long as the result is finite, which it
is for everything of moderate size. So a number that is representable is kept, and no other is.

The exponent is chosen so that the significand fits its bits, and fills them unless the exponent is
the least one (`Floating.Placed`). A representable number with a smaller exponent is then below all
that fill their bits, and one with a greater exponent is a multiple of the same power of two.
-/

namespace EntityQuery

/-! ## Rounding to integers -/

section

variable {num den : Nat} (pos : 0 < den)
include pos

/-- A fraction as its whole part and the remainder, which rounding looks at. -/
theorem div_eq_div_add_mod : (num / den : ℚ) = (num / den : Nat) + (num % den : Nat) / den := by
  have parts : (num : ℚ) = den * (num / den : Nat) + (num % den : Nat) := by
    exact_mod_cast (Nat.div_add_mod num den).symm
  have nonzero : (den : ℚ) ≠ 0 := by exact_mod_cast pos.ne'
  rw [parts]
  field_simp

/-- Rounding to a whole number is off by a half at most. -/
theorem abs_sub_roundToEven_le_half : |(num / den : ℚ) - roundToEven num den| ≤ 1 / 2 := by
  have den_pos : (0 : ℚ) < den := by exact_mod_cast pos
  have lower : (0 : ℚ) ≤ (num % den : Nat) / den := by positivity
  have upper : ((num % den : Nat) / den : ℚ) ≤ 1 :=
    (div_le_one den_pos).mpr (by exact_mod_cast (Nat.mod_lt num pos).le)
  have down : 2 * (num % den) ≤ den → ((num % den : Nat) / den : ℚ) ≤ 1 / 2 := by
    intro h
    rw [div_le_div_iff₀ den_pos two_pos, one_mul, mul_comm]
    exact_mod_cast h
  have up : den ≤ 2 * (num % den) → (1 / 2 : ℚ) ≤ (num % den : Nat) / den := by
    intro h
    rw [div_le_div_iff₀ two_pos den_pos, one_mul, mul_comm]
    exact_mod_cast h
  rw [div_eq_div_add_mod pos, abs_le]
  unfold roundToEven
  dsimp only
  split
  · next less =>
    have := down less.le
    constructor <;> linarith
  · split
    · next less =>
      have := up less.le
      push_cast
      constructor <;> linarith
    · next more less =>
      have := down (Nat.le_of_not_lt less)
      have := up (Nat.le_of_not_lt more)
      split
      · constructor <;> linarith
      · push_cast
        constructor <;> linarith

/-- No integer is nearer than the rounded one. -/
theorem abs_sub_roundToEven_le (k : ℤ) :
    |(num / den : ℚ) - roundToEven num den| ≤ |(num / den : ℚ) - k| := by
  have half : |(num / den : ℚ) - roundToEven num den| ≤ 1 / 2 := abs_sub_roundToEven_le_half pos
  by_cases same : k = roundToEven num den
  · rw [same, Int.cast_natCast]
  · have apart : (1 : ℚ) ≤ |(k : ℚ) - roundToEven num den| := by
      have := Int.one_le_abs (sub_ne_zero.mpr same)
      exact_mod_cast this
    have triangle := abs_sub_le (k : ℚ) (num / den) (roundToEven num den)
    rw [abs_sub_comm _ (k : ℚ)]
    linarith

end

namespace Floating

/-! ## The numbers of a precision -/

/-- The sign as a rational factor. -/
def sign (negative : Bool) : ℚ := if negative then -1 else 1

/-- The rational number that a finite number is. -/
def value? : Floating → Option ℚ
  | .finite s m e => some (sign s * (m * 2 ^ e))
  | _ => none

/-- A rational number is one of the numbers of a precision. -/
def Representable (p : Precision) (v : ℚ) : Prop :=
  ∃ k e : ℤ, |k| < 2 ^ p.bits ∧ p.minExponent ≤ e ∧ e ≤ p.maxExponent ∧ v = k * 2 ^ e

/-- A number of a precision than which none is nearer. -/
structure RoundsTo (p : Precision) (q v : ℚ) : Prop where
  representable : Representable p v
  nearest : ∀ u, Representable p u → |q - v| ≤ |q - u|

/-- A number of the precision is rounded to itself, and no other number is. -/
theorem RoundsTo.eq_iff {p : Precision} {q v : ℚ} (h : RoundsTo p q v) :
    q = v ↔ Representable p q := by
  constructor
  · intro same
    exact same ▸ h.representable
  · intro representable
    have none := h.nearest q representable
    rw [sub_self, abs_zero] at none
    exact sub_eq_zero.mp (abs_nonpos_iff.mp none)

variable {p : Precision} {s : Bool} {m : Nat} {e : ℤ} {v w : ℚ}

theorem one_le_bits (p : Precision) : 1 ≤ p.bits := by
  cases p <;> decide

theorem two_zpow_pos (e : ℤ) : (0 : ℚ) < 2 ^ e := zpow_pos two_pos e

theorem cast_two_pow_toNat (h : 0 ≤ e) : ((Nat.pow 2 e.toNat : Nat) : ℚ) = 2 ^ e := by
  rw [Nat.pow_eq, Nat.cast_pow, Nat.cast_ofNat, ← zpow_natCast, Int.toNat_of_nonneg h]

theorem cast_signed (s : Bool) (m : Nat) : (signed s m : ℚ) = sign s * m := by
  cases s <;> simp [signed, sign]

theorem abs_sign_mul (s : Bool) (q : ℚ) : |sign s * q| = |q| := by
  cases s <;> simp [sign]

/-- What has a value is finite. -/
theorem isFinite_of_value? {y : Floating} (h : y.value? = some v) : y.isFinite := by
  cases y with
  | finite => rfl
  | _ => cases h

theorem representable_zero (p : Precision) : Representable p 0 :=
  ⟨0, p.minExponent, by simp, le_rfl, by cases p <;> decide, by simp⟩

/-- Signs make no difference to what can be represented. -/
theorem Representable.neg (h : Representable p v) : Representable p (-v) := by
  obtain ⟨k, e, hk, low, high, rfl⟩ := h
  exact ⟨-k, e, by rwa [abs_neg], low, high, by push_cast; ring⟩

theorem Representable.signed (h : Representable p v) (s : Bool) :
    Representable p (sign s * v) := by
  cases s with
  | false => simpa [sign] using h
  | true => simpa [sign] using h.neg

/-- Rounding does not look at the sign. -/
theorem RoundsTo.signed {q : ℚ} (h : RoundsTo p q v) (s : Bool) :
    RoundsTo p (sign s * q) (sign s * v) := by
  refine ⟨h.representable.signed s, fun u hu => ?_⟩
  have twice : sign s * (sign s * u) = u := by
    cases s <;> simp [sign]
  have reflected := h.nearest _ (hu.signed s)
  rw [← abs_sign_mul s (q - v), ← abs_sign_mul s (q - sign s * u), mul_sub, mul_sub, twice]
    at reflected
  exact reflected

/-! ## Ratios -/

/-- An exponent at which the significand of a number has its place in a precision. -/
structure Placed (p : Precision) (v : ℚ) (e : ℤ) : Prop where
  min_le : p.minExponent ≤ e
  lt : v < 2 ^ (p.bits + e)
  le : p.minExponent < e → 2 ^ (p.bits - 1 + e) ≤ v

/-- A number that has the least distance among the multiples of its power of two has it among all
numbers of the precision. -/
theorem Placed.nearest (placed : Placed p v e)
    (multiple : ∀ k : ℤ, |v / 2 ^ e - w| ≤ |v / 2 ^ e - k|) {u : ℚ} (hu : Representable p u) :
    |v - w * 2 ^ e| ≤ |v - u| := by
  have unit := two_zpow_pos e
  have multiple' : ∀ k : ℤ, |v - w * 2 ^ e| ≤ |v - k * 2 ^ e| := by
    intro k
    have scaled : ∀ x : ℚ, v - x * 2 ^ e = (v / 2 ^ e - x) * 2 ^ e := by
      intro x
      field_simp
    rw [scaled, scaled, abs_mul, abs_mul]
    exact mul_le_mul_of_nonneg_right (multiple k) (abs_nonneg _)
  obtain ⟨k, f, hk, low, -, rfl⟩ := hu
  -- numbers with a greater exponent are multiples of the same unit
  by_cases above : e ≤ f
  · obtain ⟨n, rfl⟩ := Int.le.dest above
    have rescaled : (k : ℚ) * 2 ^ (e + n) = (k * 2 ^ n : ℤ) * 2 ^ e := by
      rw [zpow_add₀ two_ne_zero, zpow_natCast]
      push_cast
      ring
    rw [rescaled]
    exact multiple' _
  · -- all numbers of a smaller exponent are below the multiple that is the first to fill its bits
    have below : f < e := lt_of_not_ge above
    have full := placed.le (lt_of_le_of_lt low below)
    have small : (k : ℚ) * 2 ^ f ≤ 2 ^ (p.bits - 1 + e) := by
      have bits : (k : ℚ) ≤ 2 ^ p.bits := by exact_mod_cast (le_abs_self k).trans hk.le
      calc (k : ℚ) * 2 ^ f ≤ 2 ^ p.bits * 2 ^ f :=
            mul_le_mul_of_nonneg_right bits (two_zpow_pos f).le
        _ = 2 ^ ((p.bits : ℤ) + f) := by rw [zpow_add₀ two_ne_zero, zpow_natCast]
        _ ≤ 2 ^ (p.bits - 1 + e) := zpow_le_zpow_right₀ one_le_two (by omega)
    have first : ((2 ^ (p.bits - 1) : ℤ) : ℚ) * 2 ^ e = 2 ^ (p.bits - 1 + e) := by
      rw [zpow_add₀ two_ne_zero, ← Nat.cast_pred (one_le_bits p), zpow_natCast]
      push_cast
      rfl
    have nearer := multiple' (2 ^ (p.bits - 1))
    rw [first, abs_of_nonneg (sub_nonneg.mpr full)] at nearer
    rw [abs_of_nonneg (sub_nonneg.mpr (small.trans full))]
    linarith

/-- A ratio is scaled by a power of two. -/
theorem scaled_ratio (num : Nat) {den : Nat} (pos : 0 < den) (e : ℤ) :
    0 < (scaled num den e).2 ∧
      ((scaled num den e).1 / (scaled num den e).2 : ℚ) = num / den / 2 ^ e := by
  unfold scaled
  split
  · next h =>
    refine ⟨Nat.mul_pos pos (Nat.pow_pos two_pos), ?_⟩
    rw [Nat.cast_mul, cast_two_pow_toNat h, div_div]
  · next h =>
    refine ⟨pos, ?_⟩
    rw [Nat.cast_mul, cast_two_pow_toNat (by omega), zpow_neg]
    field_simp

/-- The size of a ratio, by the sizes of its parts. The two bounds are a factor of four apart, which
is why two exponents have to be looked at. -/
theorem log2_bounds {num den : Nat} (hnum : num ≠ 0) (hden : den ≠ 0) :
    (2 : ℚ) ^ ((num.log2 : ℤ) - den.log2 - 1) ≤ num / den ∧
      (num / den : ℚ) < 2 ^ ((num.log2 : ℤ) - den.log2 + 1) := by
  have num_pos : (0 : ℚ) < num := by exact_mod_cast Nat.pos_of_ne_zero hnum
  have den_pos : (0 : ℚ) < den := by exact_mod_cast Nat.pos_of_ne_zero hden
  have bounds : ∀ n : Nat, n ≠ 0 →
      (2 : ℚ) ^ (n.log2 : ℤ) ≤ n ∧ (n : ℚ) < 2 ^ ((n.log2 : ℤ) + 1) := by
    intro n hn
    constructor
    · rw [zpow_natCast]
      exact_mod_cast Nat.log2_self_le hn
    · rw [← Nat.cast_succ, zpow_natCast]
      exact_mod_cast Nat.lt_log2_self
  obtain ⟨num_low, num_high⟩ := bounds num hnum
  obtain ⟨den_low, den_high⟩ := bounds den hden
  -- the least numerator over the greatest denominator, then the other way round
  constructor
  · rw [le_div_iff₀ den_pos]
    calc (2 : ℚ) ^ ((num.log2 : ℤ) - den.log2 - 1) * den
        ≤ 2 ^ ((num.log2 : ℤ) - den.log2 - 1) * 2 ^ ((den.log2 : ℤ) + 1) :=
          mul_le_mul_of_nonneg_left den_high.le (two_zpow_pos _).le
      _ = 2 ^ (num.log2 : ℤ) := by
          rw [← zpow_add₀ two_ne_zero]
          congr 1
          ring
      _ ≤ num := num_low
  · rw [div_lt_iff₀ den_pos]
    calc (num : ℚ) < 2 ^ ((num.log2 : ℤ) + 1) := num_high
      _ = 2 ^ ((num.log2 : ℤ) - den.log2 + 1) * 2 ^ (den.log2 : ℤ) := by
          rw [← zpow_add₀ two_ne_zero]
          congr 1
          ring
      _ ≤ 2 ^ ((num.log2 : ℤ) - den.log2 + 1) * den :=
          mul_le_mul_of_nonneg_left den_low (two_zpow_pos _).le

/-- The exponent that a ratio is rounded at is its place: the significand fills the bits of the
precision there, unless the exponent is already the least one. -/
theorem exists_placed {num den : Nat} (hnum : num ≠ 0) (hden : den ≠ 0) (p : Precision) (s : Bool) :
    ∃ e, Placed p (num / den) e ∧
      nearest p s num den = fit p s (roundToEven (scaled num den e).1 (scaled num den e).2) e := by
  obtain ⟨low, high⟩ := log2_bounds hnum hden
  have pos := Nat.pos_of_ne_zero hden
  let start : ℤ := max p.minExponent ((num.log2 : ℤ) - den.log2 - p.bits)
  have within : ((scaled num den start).1 < (scaled num den start).2 * Nat.pow 2 p.bits) ↔
      (num / den : ℚ) < 2 ^ (p.bits + start) := by
    obtain ⟨scale_pos, ratio⟩ := scaled_ratio num pos start
    have cast_pos : (0 : ℚ) < (scaled num den start).2 := by exact_mod_cast scale_pos
    rw [zpow_add₀ two_ne_zero, zpow_natCast, ← div_lt_iff₀ (two_zpow_pos start), ← ratio,
      div_lt_iff₀ cast_pos, mul_comm]
    norm_cast
  unfold nearest
  rw [if_neg hnum]
  dsimp only
  -- the exponent that is tried first is right or too small by one, as the logarithms tell
  split
  · next fits =>
    refine ⟨start, ⟨le_max_left _ _, within.mp fits, fun above => ?_⟩, rfl⟩
    have filled : (p.bits : ℤ) - 1 + start = (num.log2 : ℤ) - den.log2 - 1 := by omega
    rwa [filled]
  · next beyond =>
    have least := le_of_not_gt (mt within.mpr beyond)
    refine ⟨start + 1, ⟨by omega, ?_, fun _ => ?_⟩, rfl⟩
    · exact high.trans_le (zpow_le_zpow_right₀ one_le_two (by omega))
    · have filled : (p.bits : ℤ) - 1 + (start + 1) = p.bits + start := by ring
      rwa [filled]

/-- A significand that is carried into one bit more is still the same number, and then fits. -/
theorem fit_eq (p : Precision) (s : Bool) (m : Nat) (e : ℤ) :
    ∃ (m' : Nat) (e' : ℤ), (m' : ℚ) * 2 ^ e' = m * 2 ^ e ∧ (m ≤ 2 ^ p.bits → m' < 2 ^ p.bits) ∧
      e ≤ e' ∧ e' ≤ e + 1 ∧
      fit p s m e = if p.maxExponent < e' then .infinity s else .finite s m' e' := by
  by_cases carry : m = Nat.pow 2 p.bits
  · refine ⟨Nat.pow 2 (p.bits - 1), e + 1, ?_, fun _ => ?_, by omega, le_rfl, ?_⟩
    · have bits : (2 : ℚ) ^ p.bits = 2 ^ (p.bits - 1) * 2 := by
        rw [← pow_succ, Nat.sub_add_cancel (one_le_bits p)]
      rw [carry, Nat.pow_eq, Nat.pow_eq, Nat.cast_pow, Nat.cast_pow, Nat.cast_ofNat, bits,
        zpow_add_one₀ two_ne_zero]
      ring
    · exact Nat.pow_lt_pow_right one_lt_two (Nat.sub_lt (one_le_bits p) one_pos)
    · rw [fit, if_pos carry]
  · refine ⟨m, e, rfl, fun within => lt_of_le_of_ne within carry, le_rfl, by omega, ?_⟩
    rw [fit, if_neg carry]

/-- The number that a significand in its place becomes. -/
theorem Placed.roundsTo (placed : Placed p v e)
    (multiple : ∀ k : ℤ, |v / 2 ^ e - m| ≤ |v / 2 ^ e - k|) (h : (fit p s m e).value? = some w) :
    RoundsTo p (sign s * v) w := by
  have unit := two_zpow_pos e
  have within : m ≤ 2 ^ p.bits := by
    have fits : v / 2 ^ e < 2 ^ p.bits := by
      rw [div_lt_iff₀ unit, ← zpow_natCast, ← zpow_add₀ two_ne_zero]
      exact placed.lt
    have nearer := multiple (2 ^ p.bits)
    rw [Int.cast_pow, Int.cast_ofNat, abs_sub_comm _ ((2 : ℚ) ^ p.bits),
      abs_of_pos (sub_pos.mpr fits)] at nearer
    have bound := neg_le_of_abs_le nearer
    have cast : (m : ℚ) ≤ 2 ^ p.bits := by linarith
    exact_mod_cast cast
  obtain ⟨m', e', same, fits, low, -, hfit⟩ := fit_eq p s m e
  rw [hfit] at h
  split at h
  · cases h
  · next high =>
    rw [value?, Option.some.injEq, same] at h
    rw [← h]
    refine RoundsTo.signed ⟨⟨m', e', ?_, placed.min_le.trans low, le_of_not_gt high, ?_⟩, ?_⟩ s
    · rw [Nat.abs_cast]
      exact_mod_cast fits within
    · rw [Int.cast_natCast, same]
    · exact fun u hu => placed.nearest multiple hu

/-- A ratio becomes a number of the precision than which none is nearer. -/
theorem nearest_roundsTo {num den : Nat} (hden : den ≠ 0)
    (h : (nearest p s num den).value? = some w) :
    RoundsTo p (sign s * (num / den)) w := by
  by_cases hnum : num = 0
  · rw [nearest, if_pos hnum, value?, Option.some.injEq, Nat.cast_zero, zero_mul, mul_zero] at h
    rw [hnum, ← h, Nat.cast_zero, zero_div, mul_zero]
    exact ⟨representable_zero p, fun u _ => by simp⟩
  · obtain ⟨e, placed, hfit⟩ := exists_placed hnum hden p s
    obtain ⟨scale_pos, ratio⟩ := scaled_ratio num (Nat.pos_of_ne_zero hden) e
    rw [hfit] at h
    refine placed.roundsTo (fun k => ?_) h
    rw [← ratio]
    exact abs_sub_roundToEven_le scale_pos k

/-- A ratio of moderate size does not become an infinity. Rounding may carry into one more bit, and
the bound leaves room for that. -/
theorem exists_nearest_value? {num den : Nat} (hden : den ≠ 0)
    (moderate : (num / den : ℚ) ≤ 2 ^ p.maxExponent) :
    ∃ w, (nearest p s num den).value? = some w := by
  by_cases hnum : num = 0
  · rw [nearest, if_pos hnum]
    exact ⟨_, rfl⟩
  · obtain ⟨e, placed, hfit⟩ := exists_placed hnum hden p s
    have room : e + 1 ≤ p.maxExponent := by
      by_cases least : p.minExponent < e
      · have := (zpow_le_zpow_iff_right₀ (one_lt_two (α := ℚ))).mp
          ((placed.le least).trans moderate)
        have : 2 ≤ p.bits := by cases p <;> decide
        omega
      · have : p.minExponent < p.maxExponent := by cases p <;> decide
        omega
    obtain ⟨m', e', -, -, -, high, hfit'⟩ :=
      fit_eq p s (roundToEven (scaled num den e).1 (scaled num den e).2) e
    rw [hfit, hfit', if_neg (by omega)]
    exact ⟨_, rfl⟩

/-! ## Decimals -/

variable {c : Nat} {x : ℤ}

/-- The size of a decimal, by the number of its digits. Decimals that are far too great or too small
are told by this, before any power is computed. -/
theorem decimal_bounds (hc : c ≠ 0) (x : ℤ) :
    (10 : ℚ) ^ ((Nat.toDigits 10 c).length + x - 1) ≤ c * 10 ^ x ∧
      (c * 10 ^ x : ℚ) < 10 ^ ((Nat.toDigits 10 c).length + x) := by
  have unit : (0 : ℚ) < 10 ^ x := zpow_pos (by norm_num) x
  have digits : 0 < (Nat.toDigits 10 c).length := Nat.length_toDigits_pos
  constructor
  · have low : 10 ^ ((Nat.toDigits 10 c).length - 1) ≤ c := by
      by_cases one : (Nat.toDigits 10 c).length = 1
      · rw [one]
        exact Nat.pos_of_ne_zero hc
      · refine Nat.le_of_not_lt fun less => ?_
        have := (Nat.length_toDigits_le_iff (by norm_num) (by omega)).mpr less
        omega
    have split : (10 : ℚ) ^ ((Nat.toDigits 10 c).length + x - 1) =
        10 ^ ((Nat.toDigits 10 c).length - 1) * 10 ^ x := by
      rw [← zpow_natCast, ← zpow_add₀ (by norm_num), Nat.cast_pred digits]
      congr 1
      ring
    rw [split]
    exact mul_le_mul_of_nonneg_right (by exact_mod_cast low) unit.le
  · have high : c < 10 ^ (Nat.toDigits 10 c).length :=
      (Nat.length_toDigits_le_iff (by norm_num) digits).mp le_rfl
    rw [zpow_add₀ (by norm_num), zpow_natCast]
    exact mul_lt_mul_of_pos_right (by exact_mod_cast high) unit

/-- Zero is nearest to what is at most half the least positive number. -/
theorem roundsTo_zero {q : ℚ} (small : 2 * |q| ≤ 2 ^ p.minExponent) : RoundsTo p q 0 := by
  refine ⟨representable_zero p, fun u hu => ?_⟩
  obtain ⟨k, e, -, low, -, rfl⟩ := hu
  rw [sub_zero]
  by_cases zero : k = 0
  · rw [zero, Int.cast_zero, zero_mul, sub_zero]
  · have least : (2 : ℚ) ^ p.minExponent ≤ |(k : ℚ) * 2 ^ e| := by
      have one_le : (1 : ℚ) ≤ |(k : ℚ)| := by exact_mod_cast Int.one_le_abs zero
      rw [abs_mul, abs_of_pos (two_zpow_pos e)]
      exact (zpow_le_zpow_right₀ one_le_two low).trans
        (le_mul_of_one_le_left (two_zpow_pos e).le one_le)
    have apart := abs_sub_abs_le_abs_sub (k * 2 ^ e : ℚ) q
    rw [abs_sub_comm] at apart
    linarith

/-- Three bits are less than a digit. -/
theorem two_zpow_le_ten_pow (n : Nat) : (2 : ℚ) ^ (3 * n : ℤ) ≤ 10 ^ (n : ℤ) := by
  rw [zpow_mul, zpow_natCast, zpow_natCast]
  exact pow_le_pow_left₀ (by norm_num) (by norm_num) n

/-- A decimal beyond the ceiling is beyond the range of the precision, so it need not be computed to
be seen to overflow. -/
theorem two_zpow_lt_ceiling (p : Precision) : (2 : ℚ) ^ p.maxExponent < 10 ^ decimalCeiling := by
  have exponents : p.maxExponent < 3 * 400 := by cases p <;> decide
  exact (zpow_lt_zpow_right₀ one_lt_two exponents).trans_le (two_zpow_le_ten_pow 400)

/-- A decimal below the floor is less than half the least number, so it is rounded to zero. -/
theorem two_mul_le_least (p : Precision) :
    2 * (10 : ℚ) ^ (-decimalCeiling - 1) ≤ 2 ^ p.minExponent := by
  have exponents : 1 + -(3 * 401) ≤ p.minExponent := by cases p <;> decide
  have digits : (10 : ℚ) ^ (-decimalCeiling - 1) ≤ 2 ^ (-(3 * 401) : ℤ) := by
    rw [show -decimalCeiling - 1 = -401 from rfl, zpow_neg, zpow_neg]
    exact inv_anti₀ (two_zpow_pos _) (two_zpow_le_ten_pow 401)
  calc 2 * (10 : ℚ) ^ (-decimalCeiling - 1) ≤ 2 * 2 ^ (-(3 * 401) : ℤ) :=
        mul_le_mul_of_nonneg_left digits zero_le_two
    _ = 2 ^ (1 + -(3 * 401) : ℤ) := (zpow_one_add₀ two_ne_zero _).symm
    _ ≤ 2 ^ p.minExponent := zpow_le_zpow_right₀ one_le_two exponents

/-- A decimal is the ratio that it is rounded as. -/
theorem ratio_of_decimal (c : Nat) (x : ℤ) :
    (0 ≤ x → ((c * Nat.pow 10 x.toNat : Nat) / (1 : Nat) : ℚ) = c * 10 ^ x) ∧
      (¬0 ≤ x → (c / (Nat.pow 10 (-x).toNat : Nat) : ℚ) = c * 10 ^ x) := by
  have power : ∀ y : ℤ, 0 ≤ y → ((Nat.pow 10 y.toNat : Nat) : ℚ) = 10 ^ y := by
    intro y hy
    rw [Nat.pow_eq, Nat.cast_pow, Nat.cast_ofNat, ← zpow_natCast, Int.toNat_of_nonneg hy]
  constructor
  · intro h
    rw [Nat.cast_mul, power x h, Nat.cast_one, div_one]
  · intro h
    rw [power (-x) (by omega), zpow_neg, div_inv_eq_mul]

/-- A decimal becomes a number of the precision than which none is nearer. Tiny decimals are zero at
once, without a power of ten that large; that zero is nearest has to be shown of them apart. -/
theorem ofDecimal_roundsTo (h : (ofDecimal p s c x).value? = some w) :
    RoundsTo p (sign s * (c * 10 ^ x)) w := by
  unfold ofDecimal at h
  dsimp only at h
  split at h
  · next tiny =>
    rw [value?, Option.some.injEq, Nat.cast_zero, zero_mul, mul_zero] at h
    rw [← h]
    refine roundsTo_zero ?_
    rw [abs_sign_mul, abs_of_nonneg (by positivity)]
    by_cases hc : c = 0
    · rw [hc, Nat.cast_zero, zero_mul, mul_zero]
      exact (two_zpow_pos _).le
    · have below : ((Nat.toDigits 10 c).length : ℤ) + x ≤ -decimalCeiling - 1 :=
        Int.le_sub_one_of_lt (tiny.resolve_left hc)
      have size : (c * 10 ^ x : ℚ) ≤ 10 ^ (-decimalCeiling - 1) :=
        (decimal_bounds hc x).2.le.trans (zpow_le_zpow_right₀ (by norm_num) below)
      linarith [two_mul_le_least p]
  · split at h
    · cases h
    · split at h
      · next whole =>
        rw [← (ratio_of_decimal c x).1 whole]
        exact nearest_roundsTo one_ne_zero h
      · next fraction =>
        rw [← (ratio_of_decimal c x).2 fraction]
        exact nearest_roundsTo (Nat.pow_pos (by norm_num)).ne' h

/-- A decimal of moderate size does not become an infinity. -/
theorem exists_ofDecimal_value? (moderate : (c * 10 ^ x : ℚ) ≤ 2 ^ p.maxExponent) :
    ∃ w, (ofDecimal p s c x).value? = some w := by
  unfold ofDecimal
  dsimp only
  split
  · exact ⟨_, rfl⟩
  · next significant =>
    split
    · next beyond =>
      have hc : c ≠ 0 := fun zero => significant (.inl zero)
      have above : decimalCeiling ≤ ((Nat.toDigits 10 c).length : ℤ) + x - 1 :=
        Int.le_sub_one_of_lt beyond
      have size : (10 : ℚ) ^ decimalCeiling ≤ c * 10 ^ x :=
        (zpow_le_zpow_right₀ (by norm_num) above).trans (decimal_bounds hc x).1
      linarith [two_zpow_lt_ceiling p]
    · split
      · next whole =>
        refine exists_nearest_value? one_ne_zero ?_
        rwa [(ratio_of_decimal c x).1 whole]
      · next fraction =>
        refine exists_nearest_value? (Nat.pow_pos (by norm_num)).ne' ?_
        rwa [(ratio_of_decimal c x).2 fraction]

/-! ## Integers -/

/-- A floating-point number is an integer when its value is. -/
theorem toInt?_eq_some_iff {y : Floating} {n : ℤ} :
    y.toInt? = some n ↔ y.value? = some (n : ℚ) := by
  match y with
  | .nan | .infinity _ => exact iff_of_false nofun nofun
  | .finite s m e =>
    rw [toInt?, value?, Option.some.injEq]
    split
    · next whole =>
      rw [Option.some.injEq, ← Int.cast_inj (α := ℚ), cast_signed, Nat.cast_mul,
        cast_two_pow_toNat whole]
    · next fraction =>
      have power := cast_two_pow_toNat (e := -e) (by omega)
      rw [zpow_neg] at power
      have multiple : ∀ k : Nat, (m : ℚ) * 2 ^ e = k ↔ m = k * Nat.pow 2 (-e).toNat := by
        intro k
        rw [← Nat.cast_inj (R := ℚ), Nat.cast_mul, power, ← div_eq_mul_inv,
          eq_div_iff (two_zpow_pos e).ne']
      split
      · next whole =>
        have divided := (multiple _).mpr (Nat.div_mul_cancel (Nat.dvd_of_mod_eq_zero whole)).symm
        rw [Option.some.injEq, ← Int.cast_inj (α := ℚ), cast_signed, divided]
      · next rest =>
        refine iff_of_false (Option.some_ne_none n).symm fun same => rest ?_
        have magnitude : (m : ℚ) * 2 ^ e = n.natAbs := by
          rw [Nat.cast_natAbs, Int.cast_abs, ← same, abs_sign_mul,
            abs_of_nonneg (mul_nonneg m.cast_nonneg (two_zpow_pos e).le)]
        rw [(multiple _).mp magnitude]
        exact Nat.mul_mod_left _ _

end Floating

end EntityQuery
