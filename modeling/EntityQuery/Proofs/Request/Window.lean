import EntityQuery.Proofs.Numeral.Decimal
import EntityQuery.Proofs.Schema.Selection
import EntityQuery.Proofs.Text.Blank
import EntityQuery.Request.Window

/-!
# Texts of windows

A window is written as two numbers with a comma between them. There may be blanks around each number
and one pair of parentheses around both. These texts are the ones that are read, and each has the
two numbers that stand in it (`Window.readPair_eq_ok`).

Blanks are taken off three times: around the text, and around each number. For this it is enough to
know that a text with visible characters at both ends is what remains of it (`Text.trimChars_pad`).
-/

namespace EntityQuery

variable {cs front middle behind inner first second digits : List Char} {n : Nat} {a b : UInt64}

open Text (Blank Solid)

/-! ## Numbers -/

namespace Numeral

/-- A numeral with blanks around it. -/
inductive Spaced : List Char → Nat → Prop
  | intro {front digits behind : List Char} {n : Nat} (hf : Blank front)
    (number : Unsigned digits n) (hb : Blank behind) : Spaced (front ++ (digits ++ behind)) n

theorem Unsigned.solid (h : Unsigned digits n) : Solid digits := by
  refine ⟨h.nonempty, fun x mem => ?_⟩
  obtain rfl | digit := h.eq_plus_or_isDigit x mem
  · decide
  · exact isBlank_of_isDigit digit

theorem Unsigned.not_opened (h : Unsigned digits n) (behind rest : List Char) :
    digits ++ behind ≠ '(' :: rest := by
  intro same
  cases digits with
  | nil => exact h.nonempty rfl
  | cons x digits =>
    have opened : x = '(' := (List.cons.inj same).1
    have first : '(' ∈ x :: digits := opened ▸ List.mem_cons_self
    exact h.not_mem (by decide) rfl first

/-- Blanks around a number make no difference. -/
theorem Spaced.pad (h : Spaced cs n) (hf : Blank front) (hb : Blank behind) :
    Spaced (front ++ (cs ++ behind)) n := by
  obtain ⟨hf', number, hb'⟩ := h
  simpa only [List.append_assoc] using
    Spaced.intro (Text.blank_append hf hf') number (Text.blank_append hb' hb)

theorem Spaced.comma_not_mem (h : Spaced cs n) : ',' ∉ cs := by
  have visible {cs : List Char} (h : Blank cs) : ',' ∉ cs := fun mem => nomatch h ',' mem
  obtain ⟨hf, number, hb⟩ := h
  have inside : ',' ∉ _ := number.not_mem (by decide) rfl
  simp only [List.mem_append, not_or]
  exact ⟨visible hf, inside, visible hb⟩

/-- A number between blanks is read as the number. -/
theorem readUInt64_trimChars {i : UInt64} :
    readUInt64 (Text.trimChars cs) = .ok i ↔ Spaced cs i.toNat := by
  rw [readUInt64_eq_ok]
  constructor
  · intro number
    obtain ⟨front, behind, hf, hb, pad⟩ := Text.exists_pad cs
    rw [pad]
    exact .intro hf number hb
  · rintro ⟨hf, number, hb⟩
    rwa [Text.trimChars_pad_solid hf hb number.solid]

end Numeral

open Numeral (Spaced)

/-! ## Parentheses -/

/-- One pair of parentheses around the whole is taken off. -/
theorem unwrapParentheses_of_enclosed (h : Text.trimChars cs = '(' :: (inner ++ [')'])) :
    unwrapParentheses cs = inner := by
  simp [unwrapParentheses, h]

theorem unwrapParentheses_of_bare (h : ∀ rest, Text.trimChars cs ≠ '(' :: rest) :
    unwrapParentheses cs = Text.trimChars cs := by
  unfold unwrapParentheses
  dsimp only
  split
  · next rest opened => exact absurd opened (h rest)
  · rfl

/-- Of two numbers without parentheses the blanks at both ends are taken off. -/
theorem unwrapParentheses_pair {m : Nat} (ha : Spaced first m) (hb : Spaced second n) :
    ∃ first' second', unwrapParentheses (first ++ ',' :: second) = first' ++ ',' :: second' ∧
      Spaced first' m ∧ Spaced second' n := by
  cases ha with
  | @intro front digits between _ hf number hb₁ =>
    cases hb with
    | @intro between' digits' behind _ hf₂ number' hb' =>
      have trimmed := Text.trimChars_pad hf hb' number.solid number'.solid
        (between ++ ',' :: between')
      have bare : ∀ rest, digits ++ ((between ++ ',' :: between') ++ digits') ≠ '(' :: rest :=
        number.not_opened _
      have unwrapped := unwrapParentheses_of_bare (trimmed ▸ bare)
      rw [trimmed] at unwrapped
      simp only [List.cons_append, List.append_assoc] at unwrapped
      refine ⟨digits ++ between, between' ++ digits', ?_, ?_, ?_⟩
      · simpa only [List.cons_append, List.append_assoc] using unwrapped
      · exact .intro (List.forall_mem_nil _) number hb₁
      · simpa only [List.append_nil] using Spaced.intro hf₂ number' (List.forall_mem_nil _)

/-- Either both parentheses are taken off or nothing but blanks. -/
theorem unwrapParentheses_cases (cs : List Char) :
    Text.trimChars cs = '(' :: (unwrapParentheses cs ++ [')']) ∨
      unwrapParentheses cs = Text.trimChars cs := by
  unfold unwrapParentheses
  dsimp only
  split
  · next rest opened =>
    split
    · next inner closed =>
      left
      rw [opened, ← List.reverse_cons, ← closed, List.reverse_reverse]
    · exact .inr rfl
  · exact .inr rfl

/-! ## Pairs -/

namespace Window

/-- The text of two numbers: a comma stands between them, there may be blanks around each, and one
pair of parentheses around both, with blanks around it. -/
inductive PairText (a b : UInt64) : List Char → Prop
  | bare {first second : List Char} (ha : Spaced first a.toNat) (hb : Spaced second b.toNat) :
    PairText a b (first ++ ',' :: second)
  | enclosed {front first second behind : List Char} (hf : Blank front)
    (ha : Spaced first a.toNat) (hb : Spaced second b.toNat) (hb' : Blank behind) :
    PairText a b (front ++ '(' :: (first ++ ',' :: (second ++ ')' :: behind)))

/-- Two numbers in decimal, with a comma between them, are a text of both. -/
theorem pairText_decimal (a b : UInt64) :
    PairText a b (Numeral.decimal a.toNat ++ "," ++ Numeral.decimal b.toNat).toList := by
  have spaced (i : UInt64) : Spaced (Numeral.decimal i.toNat).toList i.toNat := by
    simpa using Spaced.intro (List.forall_mem_nil _) (Numeral.unsigned_decimal i.toNat)
      (List.forall_mem_nil _)
  rw [String.toList_append, String.toList_append, List.append_assoc]
  exact .bare (spaced a) (spaced b)

theorem intercalate_pair (first second : List Char) :
    [','].intercalate [first, second] = first ++ ',' :: second := by
  rw [List.intercalate_cons_cons, List.intercalate_singleton, List.append_assoc]
  rfl

/-- A pair is cut at its comma, for there is no other one. -/
theorem splitOn_pair (ha : Spaced first a.toNat) (hb : Spaced second b.toNat) :
    (first ++ ',' :: second).splitOn ',' = [first, second] := by
  rw [← intercalate_pair]
  refine List.splitOn_intercalate ',' ?_ (List.cons_ne_nil _ _)
  exact List.forall_mem_cons.mpr ⟨ha.comma_not_mem, List.forall_mem_singleton.mpr hb.comma_not_mem⟩

/-- A pair is read if commas cut what stands in the parentheses into two numbers. -/
theorem readPair_eq_ok_iff_split {text : String} :
    readPair text = .ok (a, b) ↔
      ∃ first second, (unwrapParentheses text.toList).splitOn ',' = [first, second] ∧
        Spaced first a.toNat ∧ Spaced second b.toNat := by
  simp only [← Numeral.readUInt64_trimChars, ← Text.splitChars_eq_splitOn]
  constructor
  · intro h
    unfold readPair at h
    dsimp only at h
    split at h
    · next first second split =>
      refine ⟨first, second, split, ?_⟩
      split at h
      · next ha hb =>
        cases h
        exact ⟨ok_of_toOption ha, ok_of_toOption hb⟩
      · cases h
    · cases h
  · intro ⟨first, second, split, ha, hb⟩
    rw [readPair, split]
    dsimp only
    rw [ha, hb]
    rfl

/-- The texts of two numbers are the ones that are read as a pair. -/
theorem readPair_eq_ok {text : String} :
    readPair text = .ok (a, b) ↔ PairText a b text.toList := by
  rw [readPair_eq_ok_iff_split]
  constructor
  · intro ⟨first, second, split, ha, hb⟩
    have joined : unwrapParentheses text.toList = first ++ ',' :: second := by
      rw [← intercalate_pair, ← split, List.intercalate_splitOn]
    obtain ⟨front, behind, hf, hb', pad⟩ := Text.exists_pad text.toList
    obtain enclosed | bare := unwrapParentheses_cases text.toList
    · rw [enclosed, joined] at pad
      rw [pad]
      simpa only [List.cons_append, List.append_assoc, List.nil_append] using
        PairText.enclosed hf ha hb hb'
    · -- the blanks at the ends are then those around the two numbers
      rw [← bare, joined] at pad
      rw [pad]
      simpa only [List.nil_append, List.append_nil, List.append_assoc, List.cons_append] using
        PairText.bare (ha.pad hf (List.forall_mem_nil _)) (hb.pad (List.forall_mem_nil _) hb')
  · intro h
    generalize text.toList = cs at h
    cases h with
    | @enclosed front first second behind hf ha hb hb' =>
      have opening : Solid ['('] := Text.solid_singleton (by decide)
      have closing : Solid [')'] := Text.solid_singleton (by decide)
      have trimmed := Text.trimChars_pad hf hb' opening closing (first ++ ',' :: second)
      have unwrapped := unwrapParentheses_of_enclosed trimmed
      simp only [List.cons_append, List.append_assoc, List.nil_append] at unwrapped
      exact ⟨first, second, by rw [unwrapped, splitOn_pair ha hb], ha, hb⟩
    | bare ha hb =>
      obtain ⟨first, second, unwrapped, ha, hb⟩ := unwrapParentheses_pair ha hb
      exact ⟨first, second, by rw [unwrapped, splitOn_pair ha hb], ha, hb⟩

end Window

end EntityQuery
