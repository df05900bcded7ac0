import EntityQuery.Proofs.Handler.Builtin
import EntityQuery.Proofs.Numeral.Decimal

/-!
# Literals for values

A value of a type has a text in a filter (`Writes`): a string is written as itself, a constant by
its name, a truth value as a word and an integer in decimal. Whatever the field is called and
however it is reached, the handler of the type reads this text back as the value (`Writes.coerce`).
Only the empty string has no such text, for an empty literal is null.
-/

namespace EntityQuery

/-- The text of a value of a type, as a literal. -/
inductive Catalog.Writes (c : Catalog) : FieldType → Value → String → Prop
  | text {s : String} (nonempty : s ≠ "") : Writes c .string (.text s) s
  | constant {enum name : String} {e : EnumType} (declared : c.enum? enum = some e)
    (mem : name ∈ e.constants) (nonempty : name ≠ "") :
    Writes c (.enumeration enum) (.constant name) name
  | boolean (b : Bool) : Writes c .boolean (.boolean b) (if b then "true" else "false")
  | integer (n : SizedInt) :
    Writes c (.numeric (.integral n.width)) (.integer n) (Numeral.decimal n.toInt)

variable {c : Catalog} {t : FieldType} {v : Value} {literal : String} {context : LiteralContext}

/-! ## Integers -/

namespace Numeral

/-- A written integer has digits and a sign only, nothing that filters or patterns give a meaning
to. -/
theorem eq_minus_or_isDigit_of_mem_decimal {z : Int} {x : Char} (h : x ∈ (decimal z).toList) :
    x = '-' ∨ x.isDigit := by
  rw [decimal] at h
  split at h
  · rw [String.toList_append, toList_padded_one] at h
    obtain minus | digit := List.mem_append.mp h
    · exact .inl (List.mem_singleton.mp minus)
    · exact .inr ((digits_toDigits _).each x digit)
  · rw [toList_padded_one] at h
    exact .inr ((digits_toDigits _).each x h)

theorem decimal_ne_empty (z : Int) : decimal z ≠ "" := by
  intro h
  have signed := signed_decimal z
  rw [h] at signed
  cases signed with
  | unsigned unsigned =>
    cases unsigned with
    | bare digits => exact digits.nonempty rfl

/-- No character of an integer is a blank, or belongs to a fraction or an exponent. -/
theorem plain_of_mem_decimal {z : Int} {x : Char} (h : x ∈ (decimal z).toList) :
    Text.isBlank x = false ∧ x ≠ '.' ∧ x ≠ 'e' ∧ x ≠ 'E' := by
  obtain rfl | digit := eq_minus_or_isDigit_of_mem_decimal h
  · decide
  · refine ⟨isBlank_of_isDigit digit, ?_, ?_, ?_⟩ <;>
      rintro rfl <;> exact absurd digit (by decide)

end Numeral

/-- A text without blanks is its own trimmed form. -/
theorem Text.trim_eq_self {s : String} (plain : ∀ x ∈ s.toList, isBlank x = false) :
    trim s = s := by
  have same : ∀ cs : List Char, (∀ x ∈ cs, isBlank x = false) → cs.dropWhile isBlank = cs := by
    intro cs hcs
    cases cs with
    | nil => rfl
    | cons x cs => rw [List.dropWhile_cons, hcs x List.mem_cons_self, if_neg Bool.false_ne_true]
  rw [trim, trimChars, same _ plain, same _ fun x hx => plain x (List.mem_reverse.mp hx),
    List.reverse_reverse, String.ofList_toList]

/-- Integers of all widths are within the widest, by which they are read. -/
theorem SizedInt.fitsInt64 (n : SizedInt) : Numeral.FitsInt64 n.toInt := by
  have low := n.lowest_le
  have high := n.le_highest
  rw [Numeral.FitsInt64, Numeral.greatestInt64]
  cases hw : n.width <;> rw [hw] at low high <;>
    simp only [IntWidth.lowest, IntWidth.highest] at low high <;> omega

/-- The decimal form of an integer is read as the integer. -/
theorem Literal.number_decimal (n : SizedInt)
    (ht : context.field.type = .numeric (.integral n.width)) :
    number context (Numeral.decimal n.toInt) = .ok (.integer n) := by
  have plain : ∀ x ∈ (Numeral.decimal n.toInt).toList, _ := fun x => Numeral.plain_of_mem_decimal
  have whole : looksFractional (Numeral.decimal n.toInt).toList = false := by
    rw [looksFractional, List.any_eq_false]
    intro x hx
    obtain ⟨-, hpoint, hsmall, hlarge⟩ := plain x hx
    simp [hpoint, hsmall, hlarge]
  simp only [number, Text.trim_eq_self fun x hx => (plain x hx).1, ht, widthOf, readNumber, whole,
    Bool.false_eq_true, if_false, Numeral.readInt64_decimal n.fitsInt64, ofInteger,
    SizedInt.ofInt?_toInt]

/-! ## Reading back -/

namespace Catalog.Writes

/-- No value is written as the empty text, which would be read as null. -/
theorem nonempty (h : c.Writes t v literal) : literal ≠ "" := by
  cases h with
  | text nonempty => exact nonempty
  | constant _ _ nonempty => exact nonempty
  | boolean b => cases b <;> decide
  | integer n => exact Numeral.decimal_ne_empty n.toInt

/-- What is written for a type fits it. -/
theorem fits (h : c.Writes t v literal) : v.Fits c t := by
  cases h with
  | text => exact .text _
  | constant => exact .constant _ _
  | boolean b => exact .boolean b
  | integer n => exact .integer n rfl

theorem isNull (h : c.Writes t v literal) : v.isNull = false := by
  cases h <;> rfl

end Catalog.Writes

/-- A single literal becomes a single value. -/
theorem coerceEach_singleton {read : String → Except QueryError Value} (nonempty : literal ≠ "")
    (h : read literal = .ok v) : coerceEach read [literal] = .ok (.single v) := by
  rw [coerceEach, mapM_cons_eq, if_neg nonempty, h]
  rfl

namespace Catalog.Writes

/-- The handler of a type reads the text of a value as the value. -/
theorem coerce_builtinFor (h : c.Writes t v literal) (ht : context.field.type = t)
    (hc : context.catalog = c) :
    (Handler.builtinFor t).coerce context [literal] = .ok (.single v) := by
  have nonempty := h.nonempty
  cases h with
  | text => exact coerceEach_singleton nonempty rfl
  | @constant enum name e declared mem =>
    refine coerceEach_singleton nonempty ?_
    have known : Literal.enumOf context = some e := by
      simp only [Literal.enumOf, ht, hc, declared]
    have listed : e.contains literal = true := List.contains_iff_mem.mpr mem
    simp only [Literal.constant, known, listed, if_true]
  | boolean b =>
    refine coerceEach_singleton nonempty ?_
    cases b <;> rfl
  | integer n => exact coerceEach_singleton nonempty (Literal.number_decimal n ht)

/-- So it does where the type is reached through an element of a collection. -/
theorem coerce (h : c.Writes t v literal) {field : ResolvedField}
    (ht : field.type.candidate? = some t) (pattern : Option String) (depth : Nat) :
    (Registry.withAdded []).coerce c pattern depth field [literal] = .ok (.single v) := by
  obtain ⟨reached, same, read⟩ := Registry.coerce_candidate ht
  rw [read, Registry.coerce_eq_builtinFor, same]
  exact h.coerce_builtinFor same rfl

end Catalog.Writes

end EntityQuery
