import EntityQuery.Proofs.Condition.Builtin
import EntityQuery.Proofs.Filter.WellFormed
import EntityQuery.Proofs.Schema.Selection

/-!
# Selectors of a filter

A selector that resolves is a word of the filter language: no character of a name, of an index or
between segments is reserved (`isWord_of_resolve`). The built-in handlers make a path of it
(`Config.exists_resolvePath`), which is multi-valued exactly when it goes through a collection
without an index (`Registry.isMultiValued_of_pathOf`).
-/

namespace EntityQuery

open EntityQuery.Filter (IsWord isReserved)

/-! ## Words -/

/-- No character of a name is reserved in filters. -/
theorem isReserved_of_isNameChar {x : Char} (h : Segment.isNameChar x) : isReserved x = false := by
  have visible : Text.isBlank x = false :=
    Bool.eq_false_iff.mpr fun blank => Bool.eq_false_iff.mp (Segment.isNameChar_of_isBlank blank) h
  rw [isReserved, visible, Bool.or_false, decide_eq_false_iff_not]
  simp only [List.mem_cons, List.not_mem_nil, or_false]
  rintro (rfl | rfl | rfl | rfl | rfl | rfl | rfl | rfl | rfl | rfl | rfl) <;>
    exact absurd h (by decide +kernel)

/-- Neither is a digit of an index. -/
theorem isReserved_of_isDigit {x : Char} (h : x.isDigit) : isReserved x = false := by
  rw [isReserved, Numeral.isBlank_of_isDigit h, Bool.or_false, decide_eq_false_iff_not]
  simp only [List.mem_cons, List.not_mem_nil, or_false]
  rintro (rfl | rfl | rfl | rfl | rfl | rfl | rfl | rfl | rfl | rfl | rfl) <;>
    exact absurd h (by decide)

theorem isReserved_of_unsigned {digits : List Char} {n : Nat} (h : Numeral.Unsigned digits n) :
    ∀ x ∈ digits, isReserved x = false := by
  intro x mem
  obtain rfl | digit := h.eq_plus_or_isDigit x mem
  · decide
  · exact isReserved_of_isDigit digit

/-- So a segment can be spelled without a reserved character, its brackets included. -/
theorem Segment.isReserved_of_spells {piece : List Char} {s : Segment} (h : Spells piece s) :
    ∀ x ∈ piece, isReserved x = false := by
  cases h with
  | plain named => exact fun x hx => isReserved_of_isNameChar (named.each x hx)
  | indexed named number =>
    intro x hx
    simp only [List.mem_append, List.mem_cons, List.not_mem_nil, or_false] at hx
    obtain hx | rfl | hx | rfl := hx
    · exact isReserved_of_isNameChar (named.each x hx)
    · decide
    · exact isReserved_of_unsigned number x hx
    · decide

/-- Pieces that are joined have no other characters than their own and those of the separator. -/
theorem Text.mem_of_mem_intercalate {separator : List Char} {pieces : List (List Char)} {x : Char}
    (h : x ∈ separator.intercalate pieces) : x ∈ separator ∨ ∃ piece ∈ pieces, x ∈ piece := by
  induction pieces with
  | nil => cases h
  | cons first rest ih =>
    cases rest with
    | nil =>
      rw [List.intercalate_singleton] at h
      exact .inr ⟨first, List.mem_singleton_self first, h⟩
    | cons second rest =>
      rw [List.intercalate_cons_cons, List.mem_append, List.mem_append] at h
      obtain (here | between) | further := h
      · exact .inr ⟨first, List.mem_cons_self, here⟩
      · exact .inl between
      · obtain between | ⟨piece, mem, hx⟩ := ih further
        · exact .inl between
        · exact .inr ⟨piece, List.mem_cons_of_mem first mem, hx⟩

/-- The separators and what is between them make up the text. -/
theorem Text.mem_splitOn (separator : Char) {x : Char} {cs : List Char} (h : x ∈ cs) :
    x = separator ∨ ∃ piece ∈ cs.splitOn separator, x ∈ piece := by
  have joined : [separator].intercalate (cs.splitOn separator) = cs :=
    List.intercalate_splitOn separator
  rw [← List.mem_singleton]
  exact mem_of_mem_intercalate (joined.symm ▸ h)

namespace Catalog

variable {enums : List EnumType} {entities : List EntityType} {c : Catalog}
  {root selector : String} {s : ResolvedSelector}

/-- A selector that resolves is a word of the filter language. It can be written in front of an
operator as it is. -/
theorem isWord_of_resolve (built : build enums entities = .ok c)
    (h : c.resolve root selector = .ok s) : IsWord selector := by
  have resolves := (exists_resolve_iff built).mp ⟨s, h, rfl⟩
  refine ⟨fun empty => resolves.nonblank ?_, fun x hx => ?_⟩
  · rw [empty]
    exact List.forall_mem_nil _
  · obtain rfl | ⟨piece, mem, inPiece⟩ := Text.mem_splitOn '.' hx
    · decide
    · obtain ⟨segment, -, spelled⟩ := exists_of_mem_forall₂ resolves.spelled mem
      exact segment.isReserved_of_spells spelled x inPiece

end Catalog

/-! ## Paths -/

namespace Registry

/-- The built-in handlers support every type, so they make a path of every resolved selector. -/
theorem exists_pathOf (s : ResolvedSelector) : ∃ p, (withAdded []).pathOf s = .ok p :=
  ⟨_, extendAll_builtin s.fields (Path.root s.root)⟩

/-- A path is multi-valued when it goes through a collection of which no element is named. -/
theorem isMultiValued_of_pathOf {s : ResolvedSelector} {p : Path}
    (h : (withAdded []).pathOf s = .ok p) :
    p.isMultiValued ↔ ∃ field ∈ s.fields, field.type.isCollection ∧ field.index = none := by
  have steps : p.steps = s.fields.flatMap ResolvedField.steps :=
    (steps_extendAll h).trans (List.nil_append _)
  rw [Path.isMultiValued, steps, List.contains_iff_mem, List.mem_flatMap]
  refine exists_congr fun field => and_congr_right fun _ => ?_
  rw [ResolvedField.steps, ResolvedField.elementStep]
  split <;> cases field.index <;> simp_all

end Registry

/-- Without added handlers every selector that resolves has a path, and where each collection has
an index the path is not multi-valued. -/
theorem Config.exists_resolvePath {c : Catalog} {pattern : Option String} {config : Config}
    (configured : build c pattern [] [] = .ok config) {root selector : String}
    {s : ResolvedSelector} (resolved : c.resolve root selector = .ok s)
    (indexed : ∀ field ∈ s.fields, field.type.isCollection → field.index.isSome) :
    ∃ p, config.resolvePath root selector = .ok (p, s.leaf) ∧ config.registry.pathOf s = .ok p ∧
      p.isMultiValued = false := by
  obtain ⟨p, hp⟩ := Registry.exists_pathOf s
  have single : p.isMultiValued = false := by
    rw [← Bool.not_eq_true, Registry.isMultiValued_of_pathOf hp]
    rintro ⟨field, mem, collection, unindexed⟩
    have index := indexed field mem collection
    rw [unindexed] at index
    cases index
  rw [build_nil_eq_ok.mp configured]
  exact ⟨p, resolvePath_eq_ok.mpr ⟨s, resolved, hp, rfl⟩, hp, single⟩

end EntityQuery
