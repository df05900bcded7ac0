import EntityQuery.Proofs.Text.Matching
import EntityQuery.Text.Lowercase

/-!
# Parts of a text in lower case

A text is lower-cased as a whole, and only a capital sigma depends on what is around it. So a part
of a text becomes there what it becomes alone exactly if each of its sigmas ends a word in both or
in neither of the two (`Text.lowerBetween_eq_iff`, `Text.StandsAlone`). In particular a part without
a capital sigma does.

From this it follows which matches outlive the lower case: that of a prefix or of a suffix exactly
if the part stands alone (`Text.isPrefix_lowerAfter_iff`, `Text.isSuffix_lowerAfter_iff`), and that
of a pattern if its sigmas become what those of the text become and none of its `_` stands for the
one character that becomes two (`Text.SplitsAlike.lower`).
-/

namespace EntityQuery.Text

variable {before before' behind behind' cs ps part text : List Char} {c : Char}

/-- Whether a sigma ends a word, behind what is held in reverse and in front of the rest. -/
def endsWord (before behind : List Char) : Bool := meetsCased before && !meetsCased behind

/-- The lower-case form of a character in its place. -/
def lowerAt (before : List Char) (c : Char) (behind : List Char) : List Char :=
  if c = 'Σ' then if endsWord before behind then ['ς'] else ['σ'] else lowerChar c

/-- The lower-case form of a part of a text in its place. -/
def lowerBetween (before : List Char) : List Char → List Char → List Char
  | [], _ => []
  | c :: cs, behind => lowerAt before c (cs ++ behind) ++ lowerBetween (c :: before) cs behind

/-- Characters are lowered one by one, each with those around it in view. -/
theorem lowerAfter_cons (before : List Char) (c : Char) (cs : List Char) :
    lowerAfter before (c :: cs) = lowerAt before c cs ++ lowerAfter (c :: before) cs := rfl

/-- A text is lower-cased part by part. -/
theorem lowerAfter_append (before cs behind : List Char) :
    lowerAfter before (cs ++ behind) =
      lowerBetween before cs behind ++ lowerAfter (cs.reverse ++ before) behind := by
  induction cs generalizing before with
  | nil => rfl
  | cons c cs ih =>
    rw [List.cons_append, lowerAfter_cons, ih, lowerBetween, List.append_assoc, List.reverse_cons,
      List.append_assoc, List.singleton_append]

theorem lowerBetween_nil (before cs : List Char) :
    lowerBetween before cs [] = lowerAfter before cs := by
  have whole := lowerAfter_append before cs []
  rw [List.append_nil, lowerAfter, List.append_nil] at whole
  exact whole.symm

/-! ## The sigmas of a part -/

/-- How long a lowered character is does not depend on what stands around it. Only the form of a
sigma does. -/
theorem length_lowerAt (c : Char) (before behind before' behind' : List Char) :
    (lowerAt before c behind).length = (lowerAt before' c behind').length := by
  unfold lowerAt
  split
  · split <;> split <;> rfl
  · rfl

/-- It is lowered alike in two places when it is no capital sigma or ends a word in both or
neither. -/
theorem lowerAt_eq_iff :
    lowerAt before c behind = lowerAt before' c behind' ↔
      (c = 'Σ' → endsWord before behind = endsWord before' behind') := by
  unfold lowerAt
  split
  · next sigma =>
    simp only [sigma, forall_const]
    cases endsWord before behind <;> cases endsWord before' behind' <;> decide
  · next other => exact iff_of_true rfl fun sigma => absurd sigma other

/-- A part becomes the same in two places exactly if each of its sigmas ends a word in both or in
neither. -/
theorem lowerBetween_eq_iff :
    lowerBetween before cs behind = lowerBetween before' cs behind' ↔
      ∀ left right, cs = left ++ 'Σ' :: right →
        endsWord (left.reverse ++ before) (right ++ behind) =
          endsWord (left.reverse ++ before') (right ++ behind') := by
  induction cs generalizing before before' with
  | nil => exact iff_of_true rfl fun left right none => absurd none (by simp)
  | cons c cs ih =>
    have lengths := length_lowerAt c before (cs ++ behind) before' (cs ++ behind')
    have both : lowerBetween before (c :: cs) behind = lowerBetween before' (c :: cs) behind' ↔
        lowerAt before c (cs ++ behind) = lowerAt before' c (cs ++ behind') ∧
          lowerBetween (c :: before) cs behind = lowerBetween (c :: before') cs behind' :=
      ⟨fun same => List.append_inj same lengths, fun same => congrArg₂ _ same.1 same.2⟩
    rw [both, lowerAt_eq_iff, ih]
    constructor
    · rintro ⟨first, rest⟩ left right parts
      cases left with
      | nil =>
        obtain ⟨sigma, rfl⟩ := List.cons.inj parts
        exact first sigma
      | cons _ left =>
        obtain ⟨rfl, rfl⟩ := List.cons.inj parts
        simpa using rest left right rfl
    · intro each
      refine ⟨fun sigma => each [] cs (by rw [sigma]; rfl), fun left right parts => ?_⟩
      simpa using each (c :: left) right (by rw [parts]; rfl)

/-- Each sigma of a part ends a word in its place, behind what is held in reverse, exactly if it
ends one in the part alone. -/
def StandsAlone (before part behind : List Char) : Prop :=
  ∀ left right, part = left ++ 'Σ' :: right →
    endsWord (left.reverse ++ before) (right ++ behind) = endsWord left.reverse right

/-- A part stands alone when it is lowered as if nothing were around it. -/
theorem standsAlone_iff :
    StandsAlone before part behind ↔ lowerBetween before part behind = lowerAfter [] part := by
  rw [← lowerBetween_nil, lowerBetween_eq_iff]
  simp only [List.append_nil]
  rfl

/-- Without a capital sigma every part stands alone. -/
theorem standsAlone_of_no_sigma (none : 'Σ' ∉ part) : StandsAlone before part behind := by
  rintro left right rfl
  exact absurd (List.mem_append_right _ List.mem_cons_self) none

/-! ## Where a part is found -/

theorem length_lowerBetween (cs before behind before' behind' : List Char) :
    (lowerBetween before cs behind).length = (lowerBetween before' cs behind').length := by
  induction cs generalizing before before' with
  | nil => rfl
  | cons c cs ih =>
    rw [lowerBetween, lowerBetween, List.length_append, List.length_append,
      length_lowerAt c before (cs ++ behind) before' (cs ++ behind'), ih]

/-- Lowering a part with its surroundings gives as many characters as lowering it alone. -/
theorem length_lowerBetween_eq (before part behind : List Char) :
    (lowerBetween before part behind).length = (lowerAfter [] part).length := by
  rw [← lowerBetween_nil, length_lowerBetween]

/-- A prefix of a text is one in lower case exactly if it stands alone. -/
theorem isPrefix_lowerAfter_iff :
    lowerAfter [] part <+: lowerAfter [] (part ++ behind) ↔ StandsAlone [] part behind := by
  have length := length_lowerBetween_eq [] part behind
  rw [lowerAfter_append, standsAlone_iff]
  constructor
  · intro isPrefix
    have inside := List.prefix_of_prefix_length_le isPrefix (List.prefix_append _ _) length.ge
    exact (inside.eq_of_length length.symm).symm
  · intro same
    rw [same]
    exact List.prefix_append _ _

/-- A suffix of a text is one in lower case exactly if it stands alone. -/
theorem isSuffix_lowerAfter_iff :
    lowerAfter [] part <:+ lowerAfter [] (before ++ part) ↔ StandsAlone before.reverse part [] := by
  have length := length_lowerBetween_eq before.reverse part []
  rw [lowerAfter_append, List.append_nil, ← lowerBetween_nil before.reverse, standsAlone_iff]
  constructor
  · intro isSuffix
    have inside := List.suffix_of_suffix_length_le isSuffix (List.suffix_append _ _) length.ge
    exact (inside.eq_of_length length.symm).symm
  · intro same
    rw [same]
    exact List.suffix_append _ _

/-- A part that stands alone is one in lower case. -/
theorem StandsAlone.isInfix (h : StandsAlone before.reverse part behind) :
    lowerAfter [] part <:+: lowerAfter [] (before ++ (part ++ behind)) := by
  rw [lowerAfter_append, lowerAfter_append, List.append_nil, standsAlone_iff.mp h]
  exact ⟨_, _, List.append_assoc _ _ _⟩

/-! ## Patterns -/

/-- A text is split as a pattern says in such a way that the sigmas of the pattern become what those
of the text become, and no `_` stands for a character that becomes two. -/
inductive SplitsAlike : List Char → List Char → List Char → List Char → Prop
  | nil (before before' : List Char) : SplitsAlike before [] before' []
  | run {before ps before' cs : List Char} (front : List Char)
    (rest : SplitsAlike ('%' :: before) ps (front.reverse ++ before') cs) :
    SplitsAlike before ('%' :: ps) before' (front ++ cs)
  | one {before ps before' cs : List Char} {c : Char} (single : c ≠ 'İ')
    (rest : SplitsAlike ('_' :: before) ps (c :: before') cs) :
    SplitsAlike before ('_' :: ps) before' (c :: cs)
  | self {before ps before' cs : List Char} {c : Char}
    (alike : c = 'Σ' → endsWord before ps = endsWord before' cs)
    (rest : SplitsAlike (c :: before) ps (c :: before') cs) :
    SplitsAlike before (c :: ps) before' (c :: cs)

theorem splits_append (cs : List Char) (h : Splits ps text) : Splits (cs ++ ps) (cs ++ text) := by
  induction cs with
  | nil => exact h
  | cons c cs ih => exact splits_cons_iff.mpr ⟨[c], .self c, _, ih, rfl⟩

/-- Every character but one has a single one as its lower-case form. -/
theorem exists_lowerAt_eq (before behind : List Char) (single : c ≠ 'İ') :
    ∃ d, lowerAt before c behind = [d] := by
  unfold lowerAt
  split
  · split
    · exact ⟨_, rfl⟩
    · exact ⟨_, rfl⟩
  · have other : c.toNat ≠ 0x130 := fun same => single (Char.toNat_inj.mp same)
    rw [lowerChar, if_neg other]
    split
    · exact ⟨_, rfl⟩
    · exact ⟨_, rfl⟩

/-- Such a text is split in lower case as the pattern in lower case says. -/
theorem SplitsAlike.lower (h : SplitsAlike before ps before' cs) :
    Splits (lowerAfter before ps) (lowerAfter before' cs) := by
  induction h with
  | nil => exact splits_nil_iff.mpr rfl
  | run front _ ih =>
    rw [lowerAfter_append]
    exact splits_cons_iff.mpr ⟨_, .run _, _, ih, rfl⟩
  | @one before ps before' cs c single _ ih =>
    obtain ⟨d, hd⟩ := exists_lowerAt_eq before' cs single
    rw [lowerAfter_cons before', hd]
    exact splits_cons_iff.mpr ⟨[d], .one d, _, ih, rfl⟩
  | self alike _ ih =>
    rw [lowerAfter_cons, lowerAfter_cons, lowerAt_eq_iff.mpr alike]
    exact splits_append _ ih

/-- Without sigmas in the pattern, and where no `_` meets the character that becomes two, every text
that is split is split so. -/
theorem Splits.alike (h : Splits ps cs) (none : 'Σ' ∉ ps) (single : '_' ∉ ps ∨ 'İ' ∉ cs) :
    SplitsAlike before ps before' cs := by
  induction ps generalizing before before' cs with
  | nil =>
    rw [splits_nil_iff.mp h]
    exact .nil _ _
  | cons p ps ih =>
    obtain ⟨front, took, rest, others, rfl⟩ := splits_cons_iff.mp h
    rw [List.mem_cons, not_or] at none
    have single' : '_' ∉ ps ∨ 'İ' ∉ rest :=
      single.imp (mt (List.mem_cons_of_mem _)) (mt (List.mem_append_right _))
    have behind {left right : List Char} : SplitsAlike left ps right rest :=
      ih others none.2 single'
    cases took with
    | run => exact .run front behind
    | one c =>
      refine .one (fun dotted => ?_) behind
      obtain absent | absent := single
      · exact absent List.mem_cons_self
      · exact absent (dotted ▸ List.mem_cons_self)
    | self => exact .self (fun sigma => absurd sigma.symm none.1) behind

end EntityQuery.Text
