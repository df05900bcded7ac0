import EntityQuery.Proofs.Execution.KeyOrder
import EntityQuery.Proofs.Floating.Order
import EntityQuery.Proofs.Handler.Number

/-!
# The order of values

Two values can be compared when they are on one scale, on which numbers of all kinds are together
(`Value.compare_isSome_iff`), and swapping them swaps the outcome (`Value.compare_swap`).

On the scale of numbers, integers are compared as integers, and with other numbers by the places
that they have at double precision. Rounding to it never puts two integers the other way round
(`SizedInt.place_mono`), but it can give them one place. A floating-point number of that place then
equals both, though one integer is greater. That is the only way in which three values of one scale
fail to be in order (`Value.compare_trans`).
-/

namespace EntityQuery

open Floating (RoundsTo)

/-- The place of an integer of a width at double precision is that of a rounded number. -/
theorem SizedInt.exists_place (n : SizedInt) :
    ∃ v : ℚ, (Floating.ofInt .double n.toInt).place? = some (v : WithTop ℚ) ∧
      RoundsTo .double n.toInt v := by
  have moderate : (n.toInt.natAbs / (1 : ℕ) : ℚ) ≤ 2 ^ Precision.double.maxExponent := by
    rw [Nat.cast_one, div_one, Nat.cast_natAbs, Int.cast_abs]
    exact n.abs_toInt_le
  obtain ⟨v, hv⟩ := Floating.exists_nearest_value? (s := n.toInt < 0) one_ne_zero moderate
  refine ⟨v, Floating.place?_of_value? hv, ?_⟩
  have rounds := Floating.nearest_roundsTo one_ne_zero hv
  rwa [Nat.cast_one, div_one, Floating.sign_mul_natAbs] at rounds

/-- Integers have their places at double precision in their order. -/
theorem SizedInt.place_mono {m n : SizedInt} {v w : WithBot (WithTop ℚ)} (le : m.toInt ≤ n.toInt)
    (hv : (Floating.ofInt .double m.toInt).place? = some v)
    (hw : (Floating.ofInt .double n.toInt).place? = some w) : v ≤ w := by
  obtain less | same := le.lt_or_eq
  · obtain ⟨v', hv', first⟩ := m.exists_place
    obtain ⟨w', hw', second⟩ := n.exists_place
    rw [Option.some.inj (hv.symm.trans hv'), Option.some.inj (hw.symm.trans hw')]
    exact_mod_cast first.mono second (by exact_mod_cast less)
  · -- at a tie the nearest number is not the only one, but it is chosen by the integer alone
    rw [same, hw] at hv
    exact (Option.some.inj hv).ge

namespace Value

/-- The scale on which a value is compared, if it can be compared with anything. All numbers are on
the scale of the integers. -/
def scale? : Value → Option SortKind
  | .floating _ x => if x = .nan then none else some .integer
  | .list _ | .record _ => none
  | v => v.sortKind?

/-- The place of a number at double precision. -/
def place? (v : Value) : Option (WithBot (WithTop ℚ)) := v.toDouble?.bind Floating.place?

variable {a b c v : Value} {kind : SortKind}

theorem place?_isSome_iff : v.place?.isSome ↔ v.scale? = some .integer := by
  cases v with
  | integer n =>
    obtain ⟨v, hv, -⟩ := n.exists_place
    exact iff_of_true (Option.isSome_of_eq_some hv) rfl
  | floating p x =>
    rw [place?, toDouble?, Option.bind_some, Option.isSome_iff_ne_none, ne_eq,
      Floating.place?_eq_none_iff, Floating.toPrecision_eq_nan_iff, scale?]
    split
    · next nan => exact iff_of_false (fun other => other nan) nofun
    · next other => exact iff_of_true other rfl
  | _ => exact iff_of_false nofun nofun

/-- Two integers are compared exactly, whatever their widths are. -/
theorem compareNumbers_of_integers {m n : ℤ} (ha : a.toInt? = some m) (hb : b.toInt? = some n) :
    compareNumbers a b = some (Ord.compare m n) := by
  rw [compareNumbers, ha, hb]

/-- Numbers that are not both integers are compared by their places. Two integers are compared
exactly, though they may have the same place. -/
theorem compareNumbers_of_other (other : a.toInt? = none ∨ b.toInt? = none) :
    compareNumbers a b = Option.map₂ cmp a.place? b.place? := by
  have doubles : compareNumbers a b =
      a.toDouble?.bind fun x => b.toDouble?.bind fun y => x.compare y := by
    rw [compareNumbers]
    split
    · next ha hb =>
      rw [ha, hb] at other
      obtain other | other := other
      · cases other
      · cases other
    · cases a.toDouble? <;> cases b.toDouble? <;> rfl
  rw [doubles, place?, place?]
  cases a.toDouble? with
  | none => rfl
  | some x =>
    cases b.toDouble? with
    | none => exact (Option.map₂_none_right _ _).symm
    | some y => exact Floating.compare_eq x y

theorem integers_or_other (a b : Value) :
    (∃ m n, a.toInt? = some m ∧ b.toInt? = some n) ∨ a.toInt? = none ∨ b.toInt? = none := by
  cases a.toInt? with
  | none => exact .inr (.inl rfl)
  | some m =>
    cases b.toInt? with
    | none => exact .inr (.inr rfl)
    | some n => exact .inl ⟨m, n, rfl, rfl⟩

theorem scale?_of_toInt? {n : ℤ} (h : v.toInt? = some n) : v.scale? = some .integer := by
  cases v with
  | integer => rfl
  | _ => cases h

/-- Only numbers are compared as numbers. -/
theorem scales_of_compareNumbers (h : (compareNumbers a b).isSome) :
    a.scale? = some .integer ∧ b.scale? = some .integer := by
  obtain ⟨m, n, ha, hb⟩ | other := integers_or_other a b
  · exact ⟨scale?_of_toInt? ha, scale?_of_toInt? hb⟩
  · rw [compareNumbers_of_other other] at h
    obtain ⟨o, ho⟩ := Option.isSome_iff_exists.mp h
    obtain ⟨x, y, hx, hy, -⟩ := Option.map₂_eq_some_iff.mp ho
    exact ⟨place?_isSome_iff.mp (Option.isSome_of_eq_some hx),
      place?_isSome_iff.mp (Option.isSome_of_eq_some hy)⟩

/-- Only values of one scale can be compared. -/
theorem exists_scale (h : (a.compare b).isSome) :
    ∃ kind, a.scale? = some kind ∧ b.scale? = some kind := by
  cases a <;> cases b
  case boolean.boolean | character.character | text.text | dateTime.dateTime | constant.constant =>
    exact ⟨_, rfl, rfl⟩
  all_goals exact ⟨.integer, scales_of_compareNumbers h⟩

theorem compare_number (ha : a.scale? = some .integer) : a.compare b = compareNumbers a b := by
  cases a with
  | integer | floating => rfl
  | _ => cases ha

theorem sortKind?_of_scale (h : v.scale? = some kind) (other : kind ≠ .integer) :
    v.sortKind? = some kind := by
  cases v with
  | floating p x =>
    rw [scale?] at h
    split at h
    · cases h
    · exact absurd (Option.some.inj h).symm other
  | list | record => cases h
  | _ => exact h

/-- On every other scale values are compared as values of that kind. -/
theorem compare_of_scale (ha : a.scale? = some kind) (hb : b.scale? = some kind)
    (other : kind ≠ .integer) : a.compare b = some (kind.compare a b) := by
  cases pair_of_sortKind? (sortKind?_of_scale ha other) (sortKind?_of_scale hb other) with
  | boolean x y => exact congrArg some (SortKind.compareBool_eq x y)
  | text s t | constant s t => exact congrArg some (SortKind.compareText_eq s t)
  | character | dateTime => rfl
  | integer => exact absurd rfl other
  | list | record => cases ha

/-- The comparison of numbers can be turned around, be it by integers or by places. -/
theorem compareNumbers_swap (a b : Value) :
    compareNumbers b a = (compareNumbers a b).map Ordering.swap := by
  have places : Option.map₂ cmp b.place? a.place? =
      (Option.map₂ cmp a.place? b.place?).map Ordering.swap := by
    cases a.place? with
    | none => exact Option.map₂_none_right _ _
    | some x =>
      cases b.place? with
      | none => rfl
      | some y => exact congrArg some (cmp_swap x y).symm
  obtain ⟨m, n, ha, hb⟩ | other := integers_or_other a b
  · rw [compareNumbers_of_integers hb ha, compareNumbers_of_integers ha hb]
    exact congrArg some Std.OrientedCmp.eq_swap
  · rw [compareNumbers_of_other other.symm, compareNumbers_of_other other, places]

/-- Values that are swapped are compared the other way round. -/
theorem compare_swap (a b : Value) : b.compare a = (a.compare b).map Ordering.swap := by
  by_cases one : ∃ kind, a.scale? = some kind ∧ b.scale? = some kind
  · obtain ⟨kind, ha, hb⟩ := one
    by_cases number : kind = .integer
    · subst number
      rw [compare_number ha, compare_number hb, compareNumbers_swap]
    · rw [compare_of_scale ha hb number, compare_of_scale hb ha number, Option.map_some,
        ← Std.OrientedCmp.eq_swap]
  · have forth : a.compare b = none := Option.not_isSome_iff_eq_none.mp (mt exists_scale one)
    have back : b.compare a = none := by
      refine Option.not_isSome_iff_eq_none.mp (mt exists_scale fun other => one ?_)
      exact other.imp fun _ scales => scales.symm
    rw [forth, back, Option.map_none]

/-! ## Three values -/

/-- A value that counts as equal to two others of which the first may still be the greater one. -/
inductive Hides (v a b : Value) : Prop
  /-- It cannot be compared with them. -/
  | unrelated (value : v ≠ .null) (apart : a.compare v = none)
  /-- It is the number that two integers are rounded to. -/
  | rounded {p : Precision} {x : Floating} {m n : SizedInt} (hv : v = .floating p x)
      (ha : a = .integer m) (hb : b = .integer n) (first : a.compare v = some .eq)
      (second : b.compare v = some .eq)

/-- As soon as one of the numbers is no integer both are compared by their places among the
doubles. -/
theorem compareNumbers_of_places {x y : WithBot (WithTop ℚ)} (hx : a.place? = some x)
    (hy : b.place? = some y) (other : a.toInt? = none ∨ b.toInt? = none) :
    compareNumbers a b = some (cmp x y) := by
  rw [compareNumbers_of_other other, hx, hy]
  rfl

/-- A number that is not greater has no later place. -/
theorem place_le {x y : WithBot (WithTop ℚ)} (hx : a.place? = some x) (hy : b.place? = some y)
    (le : compareNumbers a b ≠ some .gt) : x ≤ y := by
  have places (other : a.toInt? = none ∨ b.toInt? = none) : x ≤ y := by
    rw [compareNumbers_of_places hx hy other, ne_eq, Option.some.injEq, cmp_eq_gt_iff] at le
    exact le_of_not_gt le
  cases a with
  | integer m =>
    cases b with
    | integer n =>
      refine SizedInt.place_mono (le_of_not_gt fun greater => le ?_) hx hy
      exact congrArg some (Int.compare_eq_gt.mpr greater)
    | _ => exact places (.inr rfl)
  | _ => exact places (.inl rfl)

/-- On the scale of numbers, a value between two others does not let the first be greater, unless it
is the number that two integers are rounded to. -/
theorem compareNumbers_trans (ha : a.scale? = some .integer) (hb : b.scale? = some .integer)
    (hc : c.scale? = some .integer) (first : compareNumbers a b ≠ some .gt)
    (second : compareNumbers b c ≠ some .gt) (unhidden : ¬b.Hides a c) :
    compareNumbers a c ≠ some .gt := by
  intro greater
  obtain ⟨x, hx⟩ := Option.isSome_iff_exists.mp (place?_isSome_iff.mpr ha)
  obtain ⟨y, hy⟩ := Option.isSome_iff_exists.mp (place?_isSome_iff.mpr hb)
  obtain ⟨z, hz⟩ := Option.isSome_iff_exists.mp (place?_isSome_iff.mpr hc)
  have left : x ≤ y := place_le hx hy first
  have right : y ≤ z := place_le hy hz second
  -- unless both ends are integers they are compared by their places, which are in order
  have mixed (other : a.toInt? = none ∨ c.toInt? = none) : False := by
    rw [compareNumbers_of_places hx hz other, Option.some.injEq, cmp_eq_gt_iff] at greater
    exact absurd (left.trans right) (not_le_of_gt greater)
  cases a with
  | integer m =>
    cases c with
    | integer n =>
      have greater : n.toInt < m.toInt := Int.compare_eq_gt.mp (Option.some.inj greater)
      cases b with
      | integer k =>
        have left : m.toInt ≤ k.toInt :=
          le_of_not_gt fun less => first (congrArg some (Int.compare_eq_gt.mpr less))
        have right : k.toInt ≤ n.toInt :=
          le_of_not_gt fun less => second (congrArg some (Int.compare_eq_gt.mpr less))
        omega
      | floating p w =>
        -- the places of the two integers enclose the one of the number from both sides
        have back : z ≤ x := SizedInt.place_mono greater.le hz hx
        have same : x = y := left.antisymm (right.trans back)
        have same' : z = y := (back.trans left).antisymm right
        refine unhidden (.rounded rfl rfl rfl ?_ ?_)
        · rw [compare_number ha, compareNumbers_of_places hx hy (.inr rfl), same, cmp_self_eq_eq]
        · rw [compare_number hc, compareNumbers_of_places hz hy (.inr rfl), same', cmp_self_eq_eq]
      | _ => cases hb
    | _ => exact mixed (.inr rfl)
  | _ => exact mixed (.inl rfl)

/-- A value between two others does not let the first be greater, unless it hides one of them. -/
theorem compare_trans (value : b ≠ .null) (first : a.compare b ≠ some .gt)
    (second : b.compare c ≠ some .gt) (unhidden : ¬b.Hides a c) : a.compare c ≠ some .gt := by
  intro greater
  have comparable : (a.compare b).isSome :=
    Option.isSome_iff_ne_none.mpr fun apart => unhidden (.unrelated value apart)
  obtain ⟨kind, ha, hc⟩ := exists_scale (Option.isSome_of_eq_some greater)
  obtain ⟨kind', ha', hb⟩ := exists_scale comparable
  obtain rfl : kind = kind' := Option.some.inj (ha.symm.trans ha')
  by_cases number : kind = .integer
  · subst number
    rw [compare_number ha] at first greater
    rw [compare_number hb] at second
    exact compareNumbers_trans ha hb hc first second unhidden greater
  · rw [compare_of_scale ha hb number, ne_eq, Option.some.injEq] at first
    rw [compare_of_scale hb hc number, ne_eq, Option.some.injEq] at second
    rw [compare_of_scale ha hc number, Option.some.injEq] at greater
    have le := Std.TransCmp.isLE_trans (Ordering.isLE_iff_ne_gt.mpr first)
      (Ordering.isLE_iff_ne_gt.mpr second)
    exact Ordering.isLE_iff_ne_gt.mp le greater

/-- Values of one scale can be compared. -/
theorem compare_isSome_iff :
    (a.compare b).isSome ↔ ∃ kind, a.scale? = some kind ∧ b.scale? = some kind := by
  refine ⟨exists_scale, ?_⟩
  rintro ⟨kind, ha, hb⟩
  by_cases number : kind = .integer
  · subst number
    rw [compare_number ha]
    obtain ⟨m, n, ha, hb⟩ | other := integers_or_other a b
    · rw [compareNumbers_of_integers ha hb]
      rfl
    · obtain ⟨x, hx⟩ := Option.isSome_iff_exists.mp (place?_isSome_iff.mpr ha)
      obtain ⟨y, hy⟩ := Option.isSome_iff_exists.mp (place?_isSome_iff.mpr hb)
      rw [compareNumbers_of_places hx hy other]
      rfl
  · rw [compare_of_scale ha hb number]
    rfl

/-- Keys that are not null are compared as values; those that cannot be compared count as equal. -/
theorem compareAscending_of_values (ha : a ≠ .null) (hb : b ≠ .null) :
    a.compareAscending b = (a.compare b).getD .eq := by
  cases a with
  | null => exact absurd rfl ha
  | _ =>
    cases b with
    | null => exact absurd rfl hb
    | _ => rfl

theorem ne_null_of_scale (h : v.scale? = some kind) : v ≠ .null := by
  rintro rfl
  cases h

/-- A value that hides two others from each other counts as equal to both of them. -/
theorem Hides.eq (hides : v.Hides a b) (comparable : (a.compare b).isSome) :
    a.compareAscending v = .eq ∧ v.compareAscending b = .eq := by
  obtain ⟨kind, ha, hb⟩ := exists_scale comparable
  have values := And.intro (ne_null_of_scale ha) (ne_null_of_scale hb)
  cases hides with
  | unrelated value apart =>
    have apart' : v.compare b = none := by
      refine Option.not_isSome_iff_eq_none.mp fun related => ?_
      obtain ⟨kind', hv, hb'⟩ := exists_scale related
      obtain rfl : kind = kind' := Option.some.inj (hb.symm.trans hb')
      exact absurd (compare_isSome_iff.mpr ⟨kind, ha, hv⟩) (by simp [apart])
    rw [compareAscending_of_values values.1 value, compareAscending_of_values value values.2, apart,
      apart']
    exact ⟨rfl, rfl⟩
  | rounded hv _ _ first second =>
    have value : v ≠ .null := hv ▸ nofun
    rw [compareAscending_of_values values.1 value, compareAscending_of_values value values.2, first,
      compare_swap b v, second]
    exact ⟨rfl, rfl⟩

/-- The number that two integers in a row are rounded to hides that the second one is greater. -/
example : Hides (.floating .double (.finite false 1 53))
    (.integer ⟨.w64, 9007199254740993, by decide, by decide⟩)
    (.integer ⟨.w64, 9007199254740992, by decide, by decide⟩) :=
  .rounded rfl rfl rfl (by decide +kernel) (by decide +kernel)

/-- Keys that are swapped are compared the other way round. -/
theorem compareAscending_swap (a b : Value) :
    b.compareAscending a = (a.compareAscending b).swap := by
  unfold compareAscending
  rw [compare_swap a b]
  cases a.isNull <;> cases b.isNull <;> cases a.compare b <;> rfl

end Value

end EntityQuery
