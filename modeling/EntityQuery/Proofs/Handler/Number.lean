import EntityQuery.Proofs.Floating.Nearest
import EntityQuery.Proofs.Handler.Literal
import EntityQuery.Proofs.Numeral.Scientific
import EntityQuery.Sample

/-!
# Literals of integers

The literal of a field of integers is a decimal numeral, or it is refused. One without a point and
an exponent is read as it stands. Any other is read at double precision first, and the integer is
that of the double: the nearest one to the number that the numeral denotes, and that number itself
only where it is one that a double can be (`Handler.coerce_integral`). Digits that a double has no
room for are lost before it is asked whether there is a fraction.
-/

namespace EntityQuery

open Numeral (Denotes Plain)
open Floating (Representable RoundsTo)

variable {context : LiteralContext} {literal : String} {w : IntWidth} {v : Value} {cs : List Char}

/-- An integer of a width is of moderate size. -/
theorem SizedInt.abs_toInt_le (n : SizedInt) :
    |(n.toInt : ℚ)| ≤ 2 ^ Precision.double.maxExponent := by
  obtain ⟨low, high⟩ := n.fitsInt64
  have bound : |n.toInt| ≤ 2 ^ 63 := by
    rw [abs_le]
    unfold Numeral.greatestInt64 at low high
    constructor <;> omega
  calc |(n.toInt : ℚ)| ≤ 2 ^ 63 := by exact_mod_cast bound
    _ = 2 ^ (63 : ℤ) := (zpow_natCast 2 63).symm
    _ ≤ 2 ^ Precision.double.maxExponent := zpow_le_zpow_right₀ one_le_two (by decide)

namespace Literal

/-- A literal is read as an integer when it has no point and no exponent. -/
theorem looksFractional_eq_false_iff : looksFractional cs = false ↔ Plain cs := by
  simp only [looksFractional, List.any_eq_false, Plain, Bool.or_eq_true, decide_eq_true_eq, not_or,
    and_assoc]

/-- A double that is read for a field of integers is an integer of its width. -/
theorem ofDouble_eq_ok_iff {y : Floating} :
    ofDouble (.integral w) y = .ok v ↔
      ∃ n : SizedInt, n.width = w ∧ y.value? = some (n.toInt : ℚ) ∧ v = .integer n := by
  simp only [← Floating.toInt?_eq_some_iff]
  unfold ofDouble
  dsimp only
  cases whole : y.toInt? with
  | none =>
    refine iff_of_false ?_ (by simp)
    split <;> nofun
  | some z =>
    have finite : y.isFinite = true := by
      cases y with
      | finite => rfl
      | _ => cases whole
    simp only [finite, Bool.not_true, Bool.false_eq_true, if_false, ofInteger_eq_ok_iff,
      Option.some.injEq, eq_comm (a := z)]

/-- What is read for a field of integers is the number of a numeral, or of a double next to it. -/
theorem denotes_of_readNumber (h : readNumber (.integral w) cs = .ok v) :
    ∃ (n : SizedInt) (q : ℚ), v = .integer n ∧ n.width = w ∧ Denotes cs q ∧
      (Plain cs → q = n.toInt) ∧ (¬Plain cs → RoundsTo .double q n.toInt) := by
  unfold readNumber at h
  by_cases plain : Plain cs
  · rw [looksFractional_eq_false_iff.mpr plain, if_neg Bool.false_ne_true] at h
    split at h
    · next z _ read =>
      obtain ⟨n, width, rfl, same⟩ := ofInteger_eq_ok_iff.mp h
      have signed := (Numeral.readInt64_eq_ok.mp read).1
      exact ⟨n, n.toInt, same, width, (Numeral.denotes_plain_iff plain).mpr ⟨_, signed, rfl⟩,
        fun _ => rfl, fun other => absurd plain other⟩
    · cases h
    · next eq => cases eq
  · have fractional : looksFractional cs = true :=
      Bool.of_not_eq_false (mt looksFractional_eq_false_iff.mp plain)
    rw [if_pos fractional] at h
    unfold readDouble at h
    split at h
    · next y read =>
      obtain ⟨n, width, value, same⟩ := ofDouble_eq_ok_iff.mp h
      obtain ⟨q, denotes, rounds⟩ := Numeral.roundsTo_of_read read value
      exact ⟨n, q, same, width, denotes, fun other => absurd other plain, fun _ => rounds⟩
    · cases h

/-- A numeral of an integer is read as the integer, if the way in which it is read has it. -/
theorem readNumber_of_denotes (n : SizedInt) (h : Denotes cs n.toInt)
    (kept : Plain cs ∨ Representable .double n.toInt) :
    readNumber (.integral n.width) cs = .ok (.integer n) := by
  unfold readNumber
  by_cases plain : Plain cs
  · obtain ⟨z, signed, same⟩ := (Numeral.denotes_plain_iff plain).mp h
    rw [Int.cast_inj] at same
    rw [looksFractional_eq_false_iff.mpr plain, if_neg Bool.false_ne_true,
      Numeral.readInt64_eq_ok.mpr ⟨same ▸ signed, n.fitsInt64⟩]
    exact ofInteger_eq_ok_iff.mpr ⟨n, rfl, rfl, rfl⟩
  · have fractional : looksFractional cs = true :=
      Bool.of_not_eq_false (mt looksFractional_eq_false_iff.mp plain)
    obtain ⟨y, u, read, value, rounds⟩ := Numeral.exists_read h n.abs_toInt_le
    have same := rounds.eq_iff.mpr (kept.resolve_left plain)
    rw [if_pos fractional, readDouble, read]
    exact ofDouble_eq_ok_iff.mpr ⟨n, rfl, same ▸ value, rfl⟩

/-- A literal is read without the blanks around it, and refused as a whole. -/
theorem number_eq {width : NumericWidth} (ht : context.field.type = .numeric width)
    (literal : String) :
    number context literal = (readNumber width (Text.trim literal).toList).mapError
      (.badLiteral (Text.trim literal) context.field.name) := by
  unfold number
  rw [ht, widthOf]
  dsimp only
  cases readNumber width (Text.trim literal).toList with
  | error fault => rfl
  | ok v => rfl

end Literal

/-- A literal that cannot be read fails with its own error. -/
theorem coerceEach_singleton_error {read : String → Except QueryError Value}
    {error : QueryError} (nonempty : literal ≠ "") (h : read literal = .error error) :
    coerceEach read [literal] = .error error := by
  rw [coerceEach, mapM_cons_eq, if_neg nonempty, h]
  rfl

namespace Handler

/-- A literal of a field of integers is refused, or it is a numeral and is read as an integer of
the width. The integer is the number of the numeral exactly when the numeral has no point and no
exponent, or when its number is one that a double can be; else it is that of a double than which
none is nearer. And a numeral of an integer of the width is not refused where it is read exactly. -/
theorem coerce_integral (ht : context.field.type = .numeric (.integral w))
    (nonempty : literal ≠ "") :
    ((∃ fault, numeric.coerce context [literal] =
          .error (.badLiteral (Text.trim literal) context.field.name fault)) ∨
      ∃ (n : SizedInt) (q : ℚ), numeric.coerce context [literal] = .ok (.single (.integer n)) ∧
        n.width = w ∧ Denotes (Text.trim literal).toList q ∧
        (¬Plain (Text.trim literal).toList → RoundsTo .double q n.toInt) ∧
        (q = n.toInt ↔ Plain (Text.trim literal).toList ∨ Representable .double q)) ∧
      ∀ n : SizedInt, n.width = w → Denotes (Text.trim literal).toList n.toInt →
        Plain (Text.trim literal).toList ∨ Representable .double n.toInt →
        numeric.coerce context [literal] = .ok (.single (.integer n)) := by
  have number := Literal.number_eq ht literal
  constructor
  · cases read : Literal.readNumber (.integral w) (Text.trim literal).toList with
    | error fault =>
      rw [read] at number
      exact .inl ⟨fault, coerceEach_singleton_error nonempty number⟩
    | ok v =>
      rw [read] at number
      obtain ⟨n, q, rfl, width, denotes, whole, rounded⟩ := Literal.denotes_of_readNumber read
      refine .inr ⟨n, q, coerceEach_singleton nonempty number, width, denotes, rounded, ?_⟩
      by_cases plain : Plain (Text.trim literal).toList
      · exact iff_of_true (whole plain) (.inl plain)
      · rw [(rounded plain).eq_iff, or_iff_right plain]
  · intro n width denotes kept
    have read := Literal.readNumber_of_denotes n denotes kept
    rw [width] at read
    rw [read] at number
    exact coerceEach_singleton nonempty number

/-- Where literals for the size of a screw are read. -/
def sizeContext : LiteralContext :=
  (Registry.withAdded []).context Sample.catalog none "size" (.numeric (.integral .w64))

/-- A numeral with an exponent that is an integer is read as it. -/
theorem coerce_integral_thousand :
    numeric.coerce sizeContext [" 1e3 "] =
      .ok (.single (.integer ⟨.w64, 1000, by decide, by decide⟩)) := by
  have one : Numeral.Digits ['1'] 1 := ⟨by decide, by simp, by decide⟩
  have three : Numeral.Digits ['3'] 3 := ⟨by decide, by simp, by decide⟩
  have scaled := Numeral.Scientific.scaled (.whole one)
    (.marked (.inl rfl) (.unsigned (.bare three)))
  have thousand : Denotes (Text.trim " 1e3 ").toList (1000 : ℤ) := by
    have value : ((1000 : ℤ) : ℚ) = (1 : ℕ) * 10 ^ ((3 : ℕ) : ℤ) := by norm_num
    have trimmed : (Text.trim " 1e3 ").toList = ['1'] ++ ['e', '3'] := by decide +kernel
    rw [value, trimmed]
    exact .bare scaled
  exact (@coerce_integral sizeContext " 1e3 " .w64 rfl (by decide)).2 _ rfl thousand
    (.inr ⟨1000, 0, by decide, by decide, by decide, by norm_num⟩)

/-- The last digit of a fraction is lost, and with it the fraction. -/
theorem coerce_integral_loses_digits :
    numeric.coerce sizeContext ["1.00000000000000000001"] =
        .ok (.single (.integer ⟨.w64, 1, by decide, by decide⟩)) ∧
      ∀ q, Denotes "1.00000000000000000001".toList q → q ≠ 1 := by
  refine ⟨rfl, fun q denotes => ?_⟩
  have digits : Numeral.Digits ("1".toList ++ "00000000000000000001".toList)
      100000000000000000001 := ⟨by decide, by simp, by decide⟩
  have value := denotes.unique (.bare (.scaled (.point digits) .none))
  have places : "00000000000000000001".toList.length = 20 := rfl
  rw [value, places]
  norm_num

end Handler

end EntityQuery
