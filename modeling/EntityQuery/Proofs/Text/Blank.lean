import EntityQuery.Text.Blank
import Mathlib.Data.List.TakeWhile

/-!
# Blanks at the ends of a text

A text with visible characters at both ends is what remains of it when blanks around it are trimmed
(`trimChars_pad`), and every text is what remains of it, with blanks on both sides (`exists_pad`).
-/

namespace EntityQuery.Text

variable {cs front behind first second : List Char}

def Blank (cs : List Char) : Prop := ∀ x ∈ cs, isBlank x = true

/-- A text of visible characters, of which there is at least one. -/
structure Solid (cs : List Char) : Prop where
  nonempty : cs ≠ []
  visible : ∀ x ∈ cs, isBlank x = false

theorem blank_append (hf : Blank front) (hb : Blank behind) : Blank (front ++ behind) :=
  List.forall_mem_append.mpr ⟨hf, hb⟩

/-- Blanks are blanks from either end. -/
theorem Blank.reverse (h : Blank cs) : Blank cs.reverse :=
  fun x mem => h x (List.mem_reverse.mp mem)

theorem Solid.reverse (h : Solid cs) : Solid cs.reverse :=
  ⟨mt List.reverse_eq_nil_iff.mp h.nonempty, fun x mem => h.visible x (List.mem_reverse.mp mem)⟩

theorem solid_singleton {x : Char} (h : isBlank x = false) : Solid [x] :=
  ⟨List.cons_ne_nil x [], List.forall_mem_singleton.mpr h⟩

/-- Nothing is dropped from a visible character on. -/
theorem dropWhile_pad (hf : Blank front) (h : Solid cs) (rest : List Char) :
    (front ++ (cs ++ rest)).dropWhile isBlank = cs ++ rest := by
  rw [List.dropWhile_append_of_pos hf]
  cases cs with
  | nil => exact absurd rfl h.nonempty
  | cons x cs =>
    have visible : ¬isBlank x = true := by simp [h.visible x List.mem_cons_self]
    rw [List.cons_append, List.dropWhile_cons_of_neg visible]

/-- In front of what is not blank nothing is dropped. -/
theorem Solid.dropWhile (h : Solid cs) (rest : List Char) :
    (cs ++ rest).dropWhile isBlank = cs ++ rest :=
  dropWhile_pad (List.forall_mem_nil _) h rest

/-- Blanks around visible characters are trimmed, and those between them are not. -/
theorem trimChars_pad (hf : Blank front) (hb : Blank behind) (h : Solid first) (h' : Solid second)
    (middle : List Char) :
    trimChars (front ++ (first ++ (middle ++ (second ++ behind)))) =
      first ++ (middle ++ second) := by
  have reversed : (first ++ (middle ++ (second ++ behind))).reverse =
      behind.reverse ++ (second.reverse ++ (middle.reverse ++ first.reverse)) := by
    simp only [List.reverse_append, List.append_assoc]
  rw [trimChars, dropWhile_pad hf h, reversed, dropWhile_pad hb.reverse h'.reverse]
  simp only [List.reverse_append, List.reverse_reverse, List.append_assoc]

/-- Trimming takes off the blanks around a text that is not blank at its ends, and no more. -/
theorem trimChars_pad_solid (hf : Blank front) (hb : Blank behind) (h : Solid cs) :
    trimChars (front ++ (cs ++ behind)) = cs := by
  rw [trimChars, dropWhile_pad hf h, List.reverse_append, ← List.append_nil cs.reverse,
    dropWhile_pad hb.reverse h.reverse, List.append_nil, List.reverse_reverse]

/-- A text is what remains of it, with blanks on both sides. -/
theorem exists_pad (cs : List Char) :
    ∃ front behind, Blank front ∧ Blank behind ∧ cs = front ++ (trimChars cs ++ behind) := by
  have blank (cs : List Char) : Blank (cs.takeWhile isBlank) := fun _ => List.mem_takeWhile_imp
  refine ⟨_, _, blank cs, (blank (cs.dropWhile isBlank).reverse).reverse, ?_⟩
  rw [trimChars, ← List.reverse_append, List.takeWhile_append_dropWhile, List.reverse_reverse,
    List.takeWhile_append_dropWhile]

end EntityQuery.Text
