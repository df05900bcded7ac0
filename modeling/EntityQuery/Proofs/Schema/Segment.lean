import EntityQuery.Proofs.Failure
import EntityQuery.Proofs.Numeral.Decimal
import EntityQuery.Schema.Selector
import Mathlib.Data.List.TakeWhile

/-!
# How segments are spelled

A segment is spelled `name` or `name[N]`: a name of letters, numbers and underscores, and behind it
an index in brackets that is read as an unsigned integer. The reader accepts these spellings only
(`read_eq_ok`), and of any other text it reports what `Misspelled` says (`read_eq_error`): first
what is wrong with the index, then what is wrong with the name.
-/

namespace EntityQuery.Segment

variable {piece name digits rest : List Char} {index : Option UInt64} {fault : SelectorFault}
  {s : Segment}

/-- The name of a field: a letter, a number or an underscore at least. -/
structure IsName (name : List Char) : Prop where
  nonempty : name ≠ []
  each : ∀ c ∈ name, isNameChar c

/-- A segment without or with an index. -/
inductive Spells : List Char → Segment → Prop
  | plain {name : List Char} (h : IsName name) : Spells name ⟨String.ofList name, none⟩
  | indexed {name digits : List Char} {i : UInt64} (h : IsName name)
    (number : Numeral.Unsigned digits i.toNat) :
    Spells (name ++ '[' :: (digits ++ [']'])) ⟨String.ofList name, some i⟩

/-- What a segment is cut into, if nothing is wrong with its index. -/
inductive Parts : List Char → List Char → Option UInt64 → Prop
  | plain {name : List Char} (h : '[' ∉ name) : Parts name name none
  | indexed {name digits : List Char} {i : UInt64} (h : '[' ∉ name)
    (number : Numeral.Unsigned digits i.toNat) :
    Parts (name ++ '[' :: (digits ++ [']'])) name (some i)

/-- What is wrong with the index of a segment. -/
inductive IndexFault : List Char → SelectorFault → Prop
  | unclosed {name rest : List Char} (h : '[' ∉ name) (unclosed : ∀ digits, rest ≠ digits ++ [']']) :
    IndexFault (name ++ '[' :: rest) (.unclosedIndex (String.ofList (name ++ '[' :: rest)))
  | notNumber {name digits : List Char} (h : '[' ∉ name)
    (bad : ∀ i : UInt64, ¬ Numeral.Unsigned digits i.toNat) :
    IndexFault (name ++ '[' :: (digits ++ [']']))
      (.badIndex (String.ofList digits) (String.ofList (name ++ '[' :: (digits ++ [']']))))

/-- What is wrong with the spelling of a segment; of several faults the index comes first. -/
inductive Misspelled : List Char → SelectorFault → Prop
  | index {piece : List Char} {fault : SelectorFault} (h : IndexFault piece fault) :
    Misspelled piece fault
  | noName {piece : List Char} {index : Option UInt64} (parts : Parts piece [] index) :
    Misspelled piece .emptySegment
  | badName {piece name : List Char} {index : Option UInt64} (parts : Parts piece name index)
    (nonempty : name ≠ []) (bad : ∃ c ∈ name, ¬ isNameChar c) :
    Misspelled piece (.badSegment (String.ofList piece))

/-! ## Names -/

/-- The check of a name passes names only. -/
theorem checkName_eq_ok {u : Unit} : checkName piece name = .ok u ↔ IsName name := by
  unfold checkName
  split
  · next empty => exact iff_of_false (by rintro ⟨⟩) fun h => h.nonempty empty
  · next nonempty =>
    split
    · next each => exact iff_of_true rfl ⟨nonempty, List.all_eq_true.mp each⟩
    · next bad => exact iff_of_false (by rintro ⟨⟩) fun h => bad (List.all_eq_true.mpr h.each)

/-- A name fails the check if it is empty, or else for a character that no name has; then the whole
segment is reported. -/
theorem checkName_eq_error :
    checkName piece name = .error fault ↔
      name = [] ∧ fault = .emptySegment ∨
        name ≠ [] ∧ (∃ c ∈ name, ¬ isNameChar c) ∧ fault = .badSegment (String.ofList piece) := by
  unfold checkName
  split
  · next empty =>
    rw [Except.error.injEq, eq_comm]
    exact ⟨fun h => .inl ⟨empty, h⟩, fun
      | .inl h => h.2
      | .inr h => absurd empty h.1⟩
  · next nonempty =>
    split
    · next each =>
      rw [List.all_eq_true] at each
      refine iff_of_false (by rintro ⟨⟩) ?_
      rintro (⟨empty, -⟩ | ⟨-, ⟨c, mem, bad⟩, -⟩)
      · exact nonempty empty
      · exact bad (each c mem)
    · next bad =>
      have found : ∃ c ∈ name, ¬ isNameChar c := by
        simpa only [List.all_eq_true, not_forall, exists_prop] using bad
      rw [Except.error.injEq, eq_comm]
      exact ⟨fun h => .inr ⟨nonempty, found, h⟩, fun
        | .inl h => absurd h.1 nonempty
        | .inr h => h.2.2⟩

theorem not_mem_of_isName {c : Char} (hc : isNameChar c = false) (h : IsName name) : c ∉ name :=
  fun mem => Bool.eq_false_iff.mp hc (h.each c mem)

/-! ## Reading -/

theorem readIndex_number {i : UInt64} (number : Numeral.readUInt64 digits = .ok i) :
    readIndex piece (digits ++ [']']) = .ok i := by
  simp only [readIndex, List.reverse_append, List.reverse_singleton, List.singleton_append,
    List.reverse_reverse, number]

theorem readIndex_notNumber {cause : Numeral.IntegerFault}
    (bad : Numeral.readUInt64 digits = .error cause) :
    readIndex piece (digits ++ [']']) =
      .error (.badIndex (String.ofList digits) (String.ofList piece)) := by
  simp only [readIndex, List.reverse_append, List.reverse_singleton, List.singleton_append,
    List.reverse_reverse, bad]

/-- An index without its closing bracket is reported before its digits are looked at. -/
theorem readIndex_unclosed (unclosed : ∀ digits, rest ≠ digits ++ [']']) :
    readIndex piece rest = .error (.unclosedIndex (String.ofList piece)) := by
  unfold readIndex
  split
  · next reversed closed =>
    refine absurd ?_ (unclosed reversed.reverse)
    rw [← List.reverse_reverse rest, closed, List.reverse_cons]
  · rfl

/-- Without a bracket the whole piece is the name. -/
theorem read_plain (h : '[' ∉ name) :
    read name = (checkName name name).map fun _ => ⟨String.ofList name, none⟩ := by
  have free : ∀ c ∈ name, (c ≠ '[' : Bool) := fun c hc => decide_eq_true fun e => h (e ▸ hc)
  rw [read, List.takeWhile_eq_self_iff.mpr free, List.dropWhile_eq_nil_iff.mpr free]
  cases checkName name name <;> rfl

/-- With one, the index is read before the name is checked, so a bad index is reported in front of a
bad name. -/
theorem read_indexed (h : '[' ∉ name) :
    read (name ++ '[' :: rest) =
      readIndex (name ++ '[' :: rest) rest >>= fun i =>
        (checkName (name ++ '[' :: rest) name).map fun _ => ⟨String.ofList name, some i⟩ := by
  have free : ∀ c ∈ name, (c ≠ '[' : Bool) := fun c hc => decide_eq_true fun e => h (e ▸ hc)
  rw [read, List.takeWhile_append_of_pos free, List.dropWhile_append_of_pos free]
  simp only [ne_eq, List.takeWhile_cons, List.dropWhile_cons, not_true, decide_false,
    Bool.false_eq_true, if_false, List.append_nil]
  cases readIndex (name ++ '[' :: rest) rest with
  | error fault => rfl
  | ok i => cases checkName (name ++ '[' :: rest) name <;> rfl

theorem read_of_parts (h : Parts piece name index) :
    read piece = (checkName piece name).map fun _ => ⟨String.ofList name, index⟩ := by
  cases h with
  | plain h => exact read_plain h
  | indexed h number =>
    rw [read_indexed h, readIndex_number (Numeral.readUInt64_eq_ok.mpr number)]
    rfl

theorem read_of_indexFault (h : IndexFault piece fault) : read piece = .error fault := by
  cases h with
  | unclosed h unclosed =>
    rw [read_indexed h, readIndex_unclosed unclosed]
    rfl
  | @notNumber name digits h bad =>
    cases read : Numeral.readUInt64 digits with
    | error cause =>
      rw [read_indexed h, readIndex_notNumber read]
      rfl
    | ok i => exact absurd (Numeral.readUInt64_eq_ok.mp read) (bad i)

/-- A segment can be cut, or something is wrong with its index. -/
theorem parts_or_indexFault (piece : List Char) :
    (∃ name index, Parts piece name index) ∨ ∃ fault, IndexFault piece fault := by
  by_cases bracket : '[' ∈ piece
  · obtain ⟨name, rest, rfl, h⟩ := List.eq_append_cons_of_mem bracket
    by_cases closed : ∃ digits, rest = digits ++ [']']
    · obtain ⟨digits, rfl⟩ := closed
      by_cases number : ∃ i : UInt64, Numeral.Unsigned digits i.toNat
      · obtain ⟨i, number⟩ := number
        exact .inl ⟨name, some i, .indexed h number⟩
      · exact .inr ⟨_, .notNumber h (not_exists.mp number)⟩
    · exact .inr ⟨_, .unclosed h (not_exists.mp closed)⟩
  · exact .inl ⟨piece, none, .plain bracket⟩

/-- A segment is spelled by a name and, if it has an index, by digits in brackets. -/
theorem spells_iff_parts :
    Spells piece s ↔ ∃ name, Parts piece name s.index ∧ IsName name ∧ s.name = String.ofList name := by
  have bracket : ∀ {name}, IsName name → '[' ∉ name := not_mem_of_isName (by decide)
  constructor
  · rintro (h | ⟨h, number⟩)
    · exact ⟨_, .plain (bracket h), h, rfl⟩
    · exact ⟨_, .indexed (bracket h) number, h, rfl⟩
  · obtain ⟨name, index⟩ := s
    rintro ⟨name, parts, h, rfl⟩
    cases parts with
    | plain => exact .plain h
    | indexed _ number => exact .indexed h number

/-- The segments that are read are those that are spelled. -/
theorem read_eq_ok : read piece = .ok s ↔ Spells piece s := by
  rw [spells_iff_parts]
  constructor
  · intro h
    obtain ⟨name, index, parts⟩ | ⟨fault, indexFault⟩ := parts_or_indexFault piece
    · rw [read_of_parts parts, map_eq_ok] at h
      obtain ⟨⟨⟩, named, rfl⟩ := h
      exact ⟨name, parts, checkName_eq_ok.mp named, rfl⟩
    · cases (read_of_indexFault indexFault).symm.trans h
  · rintro ⟨name, parts, named, hs⟩
    rw [read_of_parts parts, (checkName_eq_ok (u := ())).mpr named, ← hs]
    rfl

/-- And all other pieces are misspelled, with the one fault that is reported. -/
theorem read_eq_error : read piece = .error fault ↔ Misspelled piece fault := by
  constructor
  · intro h
    obtain ⟨name, index, parts⟩ | ⟨fault', indexFault⟩ := parts_or_indexFault piece
    · rw [read_of_parts parts, map_eq_error, checkName_eq_error] at h
      obtain ⟨rfl, rfl⟩ | ⟨nonempty, bad, rfl⟩ := h
      · exact .noName parts
      · exact .badName parts nonempty bad
    · cases (read_of_indexFault indexFault).symm.trans h
      exact .index indexFault
  · rintro (indexFault | parts | ⟨parts, nonempty, bad⟩)
    · exact read_of_indexFault indexFault
    · rw [read_of_parts parts, map_eq_error, checkName_eq_error]
      exact .inl ⟨rfl, rfl⟩
    · rw [read_of_parts parts, map_eq_error, checkName_eq_error]
      exact .inr ⟨nonempty, bad, rfl⟩

/-! ## The text of a segment -/

theorem isName_of_spells (h : Spells piece s) : IsName s.name.toList := by
  cases h with
  | plain h => rwa [String.toList_ofList]
  | indexed h number => rwa [String.toList_ofList]

/-- The text of a segment is a spelling of it. -/
theorem spells_text (named : IsName s.name.toList) : Spells s.text.toList s := by
  obtain ⟨name, index⟩ := s
  cases index with
  | none =>
    have h := Spells.plain named
    rwa [String.ofList_toList] at h
  | some i =>
    have h := Spells.indexed named (Numeral.unsigned_decimal i.toNat)
    rw [String.ofList_toList] at h
    have brackets : "[".toList = ['['] ∧ "]".toList = [']'] := ⟨rfl, rfl⟩
    simpa only [text, String.toList_append, List.append_assoc, brackets.1, brackets.2,
      List.cons_append, List.nil_append] using h

/-- A segment has no point in its text, so the text of several can be cut at the points again. -/
theorem point_not_mem_text (named : IsName s.name.toList) : '.' ∉ s.text.toList := by
  obtain ⟨name, index⟩ := s
  have inName : '.' ∉ name.toList := not_mem_of_isName (by decide) named
  cases index with
  | none => exact inName
  | some i =>
    have inNumber : '.' ∉ (Numeral.decimal i.toNat).toList :=
      (Numeral.unsigned_decimal i.toNat).not_mem (by decide) rfl
    simp [text, inName, inNumber]

/-! ## Blank text -/

/-- A number in a table of ranges lies in one of them. The search stops early, at the first range
behind the number, but what it finds is no other. -/
theorem exists_of_inRanges {ranges : List (Nat × Nat)} {n : Nat} (h : Text.inRanges ranges n) :
    ∃ range ∈ ranges, range.1 ≤ n ∧ n ≤ range.2 := by
  induction ranges with
  | nil => cases h
  | cons range ranges ih =>
    rw [Text.inRanges] at h
    split at h
    · cases h
    · next reached =>
      rw [Bool.or_eq_true, decide_eq_true_iff] at h
      obtain within | further := h
      · exact ⟨range, List.mem_cons_self, Nat.le_of_not_lt reached, within⟩
      · obtain ⟨r, mem, bounds⟩ := ih further
        exact ⟨r, List.mem_cons_of_mem _ mem, bounds⟩

/-- No blank may stand in a name. -/
theorem isNameChar_of_isBlank {c : Char} (h : Text.isBlank c) : isNameChar c = false := by
  have apart : ∀ range ∈ Text.blankRanges, ∀ k < range.2 + 1 - range.1,
      Text.inRanges Text.alphanumericRanges (range.1 + k) = false ∧ range.1 + k ≠ '_'.toNat := by
    decide +kernel
  obtain ⟨range, mem, low, high⟩ := exists_of_inRanges h
  obtain ⟨other, notUnderscore⟩ := apart range mem (c.toNat - range.1) (by omega)
  rw [Nat.add_sub_cancel' low] at other notUnderscore
  rw [isNameChar, Text.isAlphanumeric, other, Bool.false_or, decide_eq_false_iff_not]
  rintro rfl
  exact notUnderscore rfl

theorem not_spells_of_blank (blank : ∀ c ∈ piece, Text.isBlank c) : ¬ Spells piece s := by
  have notName : ∀ {name}, (∀ c ∈ name, Text.isBlank c) → ¬ IsName name := fun blanks h =>
    have ⟨c, mem⟩ := List.exists_mem_of_ne_nil _ h.nonempty
    not_mem_of_isName (isNameChar_of_isBlank (blanks c mem)) h mem
  rintro (h | ⟨h, number⟩)
  · exact notName blank h
  · exact notName (fun c mem => blank c (List.mem_append_left _ mem)) h

end EntityQuery.Segment
