import EntityQuery.Text.Matching
import Mathlib.Computability.Language
import Mathlib.Data.List.Forall2

/-!
# Patterns and the pieces of a text

A text matches a pattern when it can be split into pieces, one for each character of the pattern,
such that every character takes its piece (`Text.Splits`). The texts that a pattern matches are
therefore the product of the languages that its characters take.

The rows that are computed decide this (`Text.like_iff_exists_pieces`). A row says which prefixes of
the text are in a language, and one more character of the pattern multiplies the language by what
the character takes. A row is described by recursion on the text: its first entry is about the empty
prefix, and the others are the row of the remaining text for what the language says behind the first
character (`Text.Row`).
-/

namespace EntityQuery.Text

/-- What a character of a pattern takes. -/
inductive Takes : Char → List Char → Prop
  | run (cs : List Char) : Takes '%' cs
  | one (c : Char) : Takes '_' [c]
  | self (c : Char) : Takes c [c]

/-- A text consists of pieces that are taken by the characters of a pattern in order. -/
def Splits (pattern text : List Char) : Prop :=
  ∃ pieces, List.Forall₂ Takes pattern pieces ∧ pieces.flatten = text

variable {p : Char} {ps cs : List Char}

theorem splits_nil_iff : Splits [] cs ↔ cs = [] := by
  simp [Splits, eq_comm]

/-- A text is cut into pieces for a pattern by cutting off a piece for its first character. -/
theorem splits_cons_iff :
    Splits (p :: ps) cs ↔ ∃ front, Takes p front ∧ ∃ rest, Splits ps rest ∧ front ++ rest = cs := by
  constructor
  · rintro ⟨pieces, each, rfl⟩
    obtain ⟨front, pieces, first, others, rfl⟩ := List.forall₂_cons_left_iff.mp each
    exact ⟨front, first, pieces.flatten, ⟨pieces, others, rfl⟩, rfl⟩
  · rintro ⟨front, first, rest, ⟨pieces, each, rfl⟩, rfl⟩
    exact ⟨front :: pieces, .cons first each, rfl⟩

/-- The texts that a character of a pattern takes. -/
def taken (p : Char) : Language Char := {cs | Takes p cs}

theorem mem_taken_run : cs ∈ taken '%' := .run cs

/-- Every other character takes a single one. -/
theorem mem_taken_iff (h : p ≠ '%') : cs ∈ taken p ↔ ∃ c, (p = '_' ∨ p = c) ∧ cs = [c] := by
  constructor
  · rintro (_ | c | c)
    · exact absurd rfl h
    · exact ⟨c, .inl rfl, rfl⟩
    · exact ⟨p, .inr rfl, rfl⟩
  · rintro ⟨c, rfl | rfl, rfl⟩
    · exact .one c
    · exact .self p

/-- The texts of a pattern are put together from what its characters take. -/
theorem mem_prod_taken_iff {pattern text : List Char} :
    text ∈ (pattern.map taken).prod ↔ Splits pattern text := by
  induction pattern generalizing text with
  | nil => exact splits_nil_iff.symm
  | cons p ps ih =>
    rw [List.map_cons, List.prod_cons, Language.mem_mul, splits_cons_iff]
    simp only [ih]
    rfl

/-! ## Rows -/

variable {L M : Language Char} {bs : List Bool} {b : Bool}

/-- The entries of a row say which prefixes of a text are in a language. -/
inductive Row : Language Char → List Char → List Bool → Prop
  | nil {L : Language Char} {b : Bool} (h : b = true ↔ [] ∈ L) : Row L [] [b]
  | cons {L : Language Char} {b : Bool} {c : Char} {cs : List Char} {bs : List Bool}
    (h : b = true ↔ [] ∈ L) (rest : Row {cs | c :: cs ∈ L} cs bs) : Row L (c :: cs) (b :: bs)

namespace Row

/-- Equal languages have the same row. -/
theorem congr (h : Row L cs bs) (same : ∀ cs, cs ∈ L ↔ cs ∈ M) : Row M cs bs :=
  Language.ext same ▸ h

/-- The first entry alone is about the empty prefix. -/
theorem setFirst (h : Row L cs (b :: bs)) {b' : Bool} (first : b' = true ↔ [] ∈ M)
    (same : ∀ c cs, c :: cs ∈ L ↔ c :: cs ∈ M) : Row M cs (b' :: bs) := by
  cases h with
  | nil => exact .nil first
  | cons _ rest => exact .cons first (rest.congr (same _))

/-- The last entry is about the whole text. -/
theorem getLast (h : Row L cs bs) : bs.getLast?.getD false = true ↔ cs ∈ L := by
  induction h with
  | nil h => exact h
  | cons _ rest ih =>
    cases rest with
    | nil => exact ih
    | cons => exact ih

/-- The row of an empty pattern. -/
theorem start (cs : List Char) : Row 1 cs (true :: cs.map fun _ => false) := by
  have none (cs : List Char) : Row 0 cs (false :: cs.map fun _ => false) := by
    induction cs with
    | nil => exact .nil (by simp)
    | cons c cs ih => exact .cons (by simp) (ih.congr fun _ => Iff.rfl)
  exact (none cs).setFirst (by simp) fun c cs => iff_of_false (Language.notMem_zero _) nofun

/-- Whether a prefix of a prefix is in the language. This is the row of `%`, which takes any run of
characters behind what is matched. -/
theorem runningAny (h : Row L cs bs) (seen : Bool) :
    Row {cs | seen = true ∨ ∃ front ∈ L, ∃ rest, front ++ rest = cs} cs
      (Text.runningAny seen bs) := by
  induction h generalizing seen with
  | nil h =>
    refine .nil ?_
    change _ ↔ seen = true ∨ _
    simp [h]
  | @cons L b c cs bs h _ ih =>
    refine .cons ?_ ((ih _).congr fun cs => ?_)
    · change _ ↔ seen = true ∨ _
      simp [h]
    · -- the empty prefix is a prefix of every other one, so it has been seen
      change (seen || b) = true ∨ (∃ front, c :: front ∈ L ∧ ∃ rest, front ++ rest = cs) ↔
        seen = true ∨ ∃ front ∈ L, ∃ rest, front ++ rest = c :: cs
      simp only [Bool.or_eq_true, h, or_assoc, List.append_eq_cons_iff]
      refine or_congr_right ⟨?_, ?_⟩
      · rintro (empty | ⟨front, hfront, rest, rfl⟩)
        · exact ⟨[], empty, c :: cs, .inl ⟨rfl, rfl⟩⟩
        · exact ⟨c :: front, hfront, rest, .inr ⟨front, rfl, rfl⟩⟩
      · rintro ⟨front, hfront, rest, ⟨rfl, -⟩ | ⟨front, rfl, rfl⟩⟩
        · exact .inl hfront
        · exact .inr ⟨front, hfront, rest, rfl⟩

/-- Whether a prefix without its last character is in the language, and the character is one that is
taken. This is the row of a character or of `_`. -/
theorem zipWith (h : Row L cs bs) (takes : Char → Bool) :
    Row {cs | ∃ front ∈ L, ∃ c, takes c ∧ front ++ [c] = cs} cs
      (false :: List.zipWith (fun c reached => reached && takes c) cs bs) := by
  have none (L : Language Char) : ¬∃ front ∈ L, ∃ c, takes c ∧ front ++ [c] = [] := by
    rintro ⟨front, -, c, -, empty⟩
    cases front <;> cases empty
  induction h with
  | nil => exact .nil (iff_of_false nofun (none _))
  | @cons L b c cs bs h rest ih =>
    refine .cons (iff_of_false nofun (none _)) (ih.setFirst ?_ fun d cs => ?_)
    · change _ ↔ ∃ front ∈ L, ∃ d, takes d ∧ front ++ [d] = [c]
      rw [Bool.and_eq_true, h]
      constructor
      · rintro ⟨empty, took⟩
        exact ⟨[], empty, c, took, rfl⟩
      · rintro ⟨front, hfront, d, took, same⟩
        obtain ⟨rfl, rfl⟩ : front = [] ∧ d = c := by
          simpa using List.append_eq_singleton_iff.mp same
        exact ⟨hfront, took⟩
    · change (∃ front, c :: front ∈ L ∧ ∃ e, takes e ∧ front ++ [e] = d :: cs) ↔
        ∃ front ∈ L, ∃ e, takes e ∧ front ++ [e] = c :: d :: cs
      constructor
      · rintro ⟨front, hfront, e, took, same⟩
        exact ⟨c :: front, hfront, e, took, congrArg _ same⟩
      · rintro ⟨front, hfront, e, took, same⟩
        cases front with
        | nil => cases same
        | cons _ front =>
          obtain ⟨rfl, behind⟩ := List.cons.inj same
          exact ⟨front, hfront, e, took, behind⟩

/-- One more character of the pattern takes what follows a prefix. Folded over the pattern it gives
the language of the whole pattern. -/
theorem likeRow (h : Row L cs bs) (p : Char) : Row (L * taken p) cs (Text.likeRow cs bs p) := by
  unfold Text.likeRow
  split
  · next run =>
    refine (h.runningAny false).congr fun cs => ?_
    subst run
    change false = true ∨ (∃ front ∈ L, ∃ rest, front ++ rest = cs) ↔ _
    simp only [Language.mem_mul, mem_taken_run, true_and, Bool.false_eq_true, false_or]
  · next other =>
    refine (h.zipWith _).congr fun cs => ?_
    change (∃ front ∈ L, ∃ c, _ ∧ front ++ [c] = cs) ↔ _
    simp only [Language.mem_mul, mem_taken_iff other, Bool.or_eq_true, decide_eq_true_eq]
    refine exists_congr fun front => and_congr_right fun _ => ⟨?_, ?_⟩
    · rintro ⟨c, took, rfl⟩
      exact ⟨[c], ⟨c, took, rfl⟩, rfl⟩
    · rintro ⟨_, ⟨c, took, rfl⟩, rfl⟩
      exact ⟨c, took, rfl⟩

/-- A step of the algorithm for each character of a pattern multiplies the language by what the
character takes. -/
theorem foldl (h : Row L cs bs) (pattern : List Char) :
    Row (L * (pattern.map taken).prod) cs (pattern.foldl (Text.likeRow cs) bs) := by
  induction pattern generalizing L bs with
  | nil => simpa using h
  | cons p ps ih =>
    rw [List.map_cons, List.prod_cons, ← mul_assoc]
    exact ih (h.likeRow p)

end Row

/-- The last entry of the row of a pattern is about the whole text. -/
theorem like_eq_true_iff {text pattern : List Char} :
    like text pattern = true ↔ text ∈ (pattern.map taken).prod := by
  rw [like, ((Row.start text).foldl pattern).getLast, one_mul]

/-- The last entry of the last row is about the whole text, which is what the algorithm answers. -/
theorem like_iff_splits {text pattern : List Char} :
    like text pattern = true ↔ Splits pattern text :=
  like_eq_true_iff.trans mem_prod_taken_iff

/-- What a character takes, by the wildcard that it is, if it is one. -/
theorem takes_iff {piece : List Char} :
    Takes p piece ↔
      if p = '%' then True else if p = '_' then ∃ c, piece = [c] else piece = [p] := by
  by_cases run : p = '%'
  · subst run
    exact iff_of_true (.run piece) trivial
  · have single : Takes p piece ↔ ∃ c, (p = '_' ∨ p = c) ∧ piece = [c] := mem_taken_iff run
    rw [single, if_neg run]
    by_cases one : p = '_'
    · simp only [one, true_or, true_and, if_true]
    · simp only [one, false_or, exists_eq_left', if_false]

/-- A text matches a pattern when it is put together of pieces, one for each character of the
pattern: any run of characters for `%`, one character for `_`, and for every other character the
character itself. -/
theorem like_iff_exists_pieces (text pattern : List Char) :
    like text pattern = true ↔
      ∃ pieces : List (List Char), pieces.flatten = text ∧
        List.Forall₂ (fun p piece =>
          if p = '%' then True else if p = '_' then ∃ c, piece = [c] else piece = [p])
          pattern pieces := by
  have takes : Takes = fun p piece =>
      if p = '%' then True else if p = '_' then ∃ c, piece = [c] else piece = [p] :=
    funext fun p => funext fun piece => propext takes_iff
  rw [like_eq_true_iff, mem_prod_taken_iff, Splits, ← takes]
  simp only [and_comm]

/-! ## Searching -/

/-- A part occurs in a text when it is an infix of it. -/
theorem occursIn_iff {part text : List Char} : occursIn part text = true ↔ part <:+: text := by
  induction text with
  | nil => simp [occursIn]
  | cons c cs ih =>
    rw [occursIn, Bool.or_eq_true, ih, List.isPrefixOf_iff_prefix, List.infix_cons_iff]

end EntityQuery.Text
