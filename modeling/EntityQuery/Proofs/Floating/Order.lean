import EntityQuery.Proofs.Floating.Nearest
import Mathlib.Order.Compare
import Mathlib.Order.WithBot

/-!
# The order of floating-point numbers

Except for not-a-number, every floating-point number has a place in one order: that of its value, or
an end of it for an infinity (`Floating.place?`). Two numbers are compared by their places
(`Floating.compare_eq`), so the order is total on what has a place.

Rounding keeps the order of what it rounds, though not strictly: of two numbers the smaller one is
not rounded to more (`RoundsTo.mono`).
-/

namespace EntityQuery

namespace Floating

/-- The place of a number in the order of all of them; not-a-number has none. -/
def place? : Floating → Option (WithBot (WithTop ℚ))
  | .nan => none
  | .infinity true => some ⊥
  | .infinity false => some (⊤ : WithTop ℚ)
  | .finite s m e => some ((sign s * (m * 2 ^ e) : ℚ) : WithTop ℚ)

/-- A finite number is a multiple of any power of two that is not above its own. -/
theorem inUnits_mul {u : ℤ} (s : Bool) (m : Nat) {e : ℤ} (le : u ≤ e) :
    (inUnits u s m e : ℚ) * 2 ^ u = sign s * (m * 2 ^ e) := by
  obtain ⟨n, rfl⟩ := Int.le.dest le
  rw [inUnits, cast_signed, Nat.cast_mul, cast_two_pow_toNat (by omega), add_sub_cancel_left,
    zpow_add₀ two_ne_zero]
  ring

/-- Two numbers are compared as whole numbers of a unit that divides both, which is the comparison
of their values. -/
theorem compare_inUnits {u : ℤ} {s t : Bool} {m n : Nat} {e f : ℤ} (he : u ≤ e) (hf : u ≤ f) :
    Ord.compare (inUnits u s m e) (inUnits u t n f) =
      cmp (sign s * (m * 2 ^ e) : ℚ) (sign t * (n * 2 ^ f)) := by
  rw [← cmp_eq_compare, ← inUnits_mul s m he, ← inUnits_mul t n hf,
    cmp_mul_pos_right (two_zpow_pos u)]
  exact (Int.cast_strictMono.cmp_map_eq _ _).symm

/-- Two numbers are compared by their places, if they have any. -/
theorem compare_eq (x y : Floating) : x.compare y = Option.map₂ cmp x.place? y.place? := by
  have value (s : Bool) (m : Nat) (e : ℤ) :
      (⊥ : WithBot (WithTop ℚ)) < (sign s * (m * 2 ^ e) : ℚ) ∧
        ((sign s * (m * 2 ^ e) : ℚ) : WithBot (WithTop ℚ)) < (⊤ : WithTop ℚ) :=
    ⟨WithBot.bot_lt_coe _, WithBot.coe_lt_coe.mpr (WithTop.coe_lt_top _)⟩
  have ends : (⊥ : WithBot (WithTop ℚ)) < (⊤ : WithTop ℚ) := WithBot.bot_lt_coe _
  match x, y with
  | .nan, _ => rfl
  | .infinity true, .nan | .infinity false, .nan | .finite .., .nan => rfl
  | .infinity true, .infinity true => exact congrArg some (cmp_self_eq_eq _).symm
  | .infinity false, .infinity false => exact congrArg some (cmp_self_eq_eq _).symm
  | .infinity true, .infinity false => exact congrArg some (cmp_eq_lt_iff _ _ |>.mpr ends).symm
  | .infinity false, .infinity true => exact congrArg some (cmp_eq_gt_iff _ _ |>.mpr ends).symm
  | .infinity true, .finite t n f =>
    exact congrArg some (cmp_eq_lt_iff _ _ |>.mpr (value t n f).1).symm
  | .infinity false, .finite t n f =>
    exact congrArg some (cmp_eq_gt_iff _ _ |>.mpr (value t n f).2).symm
  | .finite s m e, .infinity true =>
    exact congrArg some (cmp_eq_gt_iff _ _ |>.mpr (value s m e).1).symm
  | .finite s m e, .infinity false =>
    exact congrArg some (cmp_eq_lt_iff _ _ |>.mpr (value s m e).2).symm
  | .finite s m e, .finite t n f =>
    refine congrArg some ((compare_inUnits (min_le_left e f) (min_le_right e f)).trans ?_)
    exact ((WithTop.coe_strictMono.cmp_map_eq _ _).symm.trans
      (WithBot.coe_strictMono.cmp_map_eq _ _).symm)

/-- A finite number has the place of its value. -/
theorem place?_of_value? {x : Floating} {v : ℚ} (h : x.value? = some v) :
    x.place? = some (v : WithTop ℚ) := by
  cases x with
  | finite s m e =>
    cases h
    rfl
  | _ => cases h

/-- Of two numbers the smaller one is not rounded to more. It need not be rounded to less: two
integers can have one place. -/
theorem RoundsTo.mono {p : Precision} {q r v w : ℚ} (hq : RoundsTo p q v) (hr : RoundsTo p r w)
    (less : q < r) : v ≤ w := by
  by_contra! above
  -- both would have to be on their own side of the middle between the two results
  have left : v + w ≤ 2 * q := by
    by_contra! low
    have nearer : |q - w| < v - q := abs_lt.mpr ⟨by linarith, by linarith⟩
    have := hq.nearest w hr.representable
    rw [abs_sub_comm q v] at this
    linarith [le_abs_self (v - q)]
  have right : 2 * r ≤ v + w := by
    by_contra! high
    have nearer : |r - v| < r - w := abs_lt.mpr ⟨by linarith, by linarith⟩
    linarith [hr.nearest v hq.representable, le_abs_self (r - w)]
  linarith

theorem sign_mul_natAbs (n : ℤ) : sign (n < 0) * n.natAbs = n := by
  rw [← cast_signed, Int.cast_inj, signed]
  simp only [decide_eq_true_eq, Int.ofNat_eq_natCast]
  split <;> omega

/-- Rounding never gives a number that is none. -/
theorem nearest_ne_nan (p : Precision) (s : Bool) (num den : Nat) : nearest p s num den ≠ .nan := by
  have fits (m : Nat) (e : ℤ) : fit p s m e ≠ .nan := by
    obtain ⟨m', e', -, -, -, -, hfit⟩ := fit_eq p s m e
    rw [hfit]
    split <;> nofun
  unfold nearest
  dsimp only
  split
  · nofun
  · split <;> exact fits _ _

/-- A change of precision makes nothing of a number but another number. -/
theorem toPrecision_eq_nan_iff {p : Precision} {x : Floating} :
    x.toPrecision p = .nan ↔ x = .nan := by
  cases x with
  | nan => exact Iff.rfl
  | infinity s => exact Iff.rfl
  | finite s m e =>
    refine iff_of_false ?_ nofun
    rw [toPrecision]
    split <;> exact nearest_ne_nan _ _ _ _

/-- Only what is not a number has no place in the order. -/
theorem place?_eq_none_iff {x : Floating} : x.place? = none ↔ x = .nan := by
  match x with
  | .nan => exact iff_of_true rfl rfl
  | .infinity true | .infinity false | .finite .. => exact iff_of_false nofun nofun

end Floating

end EntityQuery
