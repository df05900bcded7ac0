import EntityQuery.Proofs.Schema.Lineage
import EntityQuery.Proofs.Schema.Segment

/-!
# Chains of fields

A selector is followed from its root: the first segment is looked up on the root entity, and each
later one on the entity that the field before it leads to. The fields that have been found so far
form a chain (`Chain`), and what the next segment gives is a further field of the chain
(`nextField_eq_ok`) or one of four faults (`nextField_eq_error`).

In a built catalog a chain leads to declared entities only (`Chain.entity?`), so that no segment
fails because its entity is unknown.
-/

namespace EntityQuery

/-- The segment that a field was looked up by. -/
def ResolvedField.segment (field : ResolvedField) : Segment := ⟨field.name, field.index⟩

namespace Catalog

/-- The entity that the next segment is looked up on: the root, or else the one that the last field
leads to. -/
def entityBehind (root : String) (fields : List ResolvedField) : Option String :=
  match fields.getLast? with
  | none => some root
  | some field => field.type.navigable?

/-- The position in front of a position. -/
def parentOf : Nat → Option Nat
  | 0 => none
  | n + 1 => some n

/-- A field is the one that an entity has under its name. It carries the type and the owner that
the nearest declaration gives it, an index only if it is a collection, and the position in front of
its own. -/
structure Finds (c : Catalog) (entity : String) (position : Nat) (field : ResolvedField) :
    Prop where
  sees : ∃ owner declared, c.Sees field.name entity owner declared ∧
    field.type = declared.type ∧ field.owner = owner.name
  indexable : field.index.isSome → field.type.isCollection
  parent : field.parent = parentOf position

/-- Fields that are found one behind the other, from the root on. -/
inductive Chain (c : Catalog) (root : String) : List ResolvedField → Prop
  | nil : Chain c root []
  | snoc {fields : List ResolvedField} {field : ResolvedField} {entity : String}
    (h : Chain c root fields) (on : entityBehind root fields = some entity)
    (found : c.Finds entity fields.length field) : Chain c root (fields ++ [field])

/-- What is wrong with a segment behind the fields of a chain. -/
inductive Fault (c : Catalog) (selector root : String) (fields : List ResolvedField) :
    List Char → QueryError → Prop
  | misspelled {piece : List Char} {fault : SelectorFault} (h : Segment.Misspelled piece fault) :
    Fault c selector root fields piece (.invalidSelector selector fault)
  | endOfPath {piece : List Char} {s : Segment} {previous : ResolvedField}
    (h : Segment.Spells piece s) (last : fields.getLast? = some previous)
    (leads : previous.type.navigable? = none) :
    Fault c selector root fields piece (.unresolvedField selector previous.type.text s.name)
  | unseen {piece : List Char} {s : Segment} {entity : String} (h : Segment.Spells piece s)
    (on : entityBehind root fields = some entity) (known : (c.entity? entity).isSome)
    (unseen : ∀ owner declared, ¬ c.Sees s.name entity owner declared) :
    Fault c selector root fields piece (.unresolvedField selector entity s.name)
  | notIndexable {piece : List Char} {s : Segment} {entity : String} {owner : EntityType}
    {declared : Field} (h : Segment.Spells piece s) (on : entityBehind root fields = some entity)
    (sees : c.Sees s.name entity owner declared) (index : s.index.isSome)
    (single : ¬ declared.type.isCollection) :
    Fault c selector root fields piece (.invalidSelector selector (.notIndexable s.name))

variable {enums : List EnumType} {entities : List EntityType} {c : Catalog}
  {selector root entity : String} {fields : List ResolvedField} {field previous : ResolvedField}
  {piece : List Char} {s : Segment} {e : QueryError}

theorem entityBehind_concat :
    entityBehind root (fields ++ [previous]) = previous.type.navigable? := by
  rw [entityBehind, List.getLast?_concat]

/-- A chain leads to declared entities. -/
theorem Chain.entity? (built : build enums entities = .ok c) (known : (c.entity? root).isSome)
    (h : c.Chain root fields) (on : entityBehind root fields = some entity) :
    (c.entity? entity).isSome := by
  cases h with
  | nil =>
    cases on
    exact known
  | snoc _ _ found =>
    obtain ⟨owner, declared, sees, htype, -⟩ := found.sees
    rw [entityBehind_concat, htype] at on
    exact entity?_of_navigable? built sees on

/-- Each field of a chain knows its place behind the field in front of it. -/
theorem Chain.parent (h : c.Chain root fields) {i : Nat} (hi : fields[i]? = some field) :
    field.parent = parentOf i := by
  induction h with
  | nil => cases hi
  | @snoc fields last entity _ _ found ih =>
    rw [List.getElem?_append] at hi
    split at hi
    · exact ih hi
    · next beyond =>
      have here : i = fields.length := by
        have := (List.getElem?_eq_some_iff.mp hi).1
        rw [List.length_singleton] at this
        omega
      rw [here, Nat.sub_self] at hi
      cases hi
      rw [here, found.parent]

/-! ## One more segment -/

/-- A segment resolves to the field that its entity sees under this name, its own or an inherited
one. -/
theorem resolveSegment_eq_ok (built : build enums entities = .ok c) {position : Nat} :
    c.resolveSegment selector entity (parentOf position) s = .ok field ↔
      field.segment = s ∧ c.Finds entity position field := by
  unfold resolveSegment
  constructor
  · intro h
    split at h
    · cases h
    · next owner declared found =>
      have sees := (findField_eq_some built).mp found
      split at h
      · cases h
      · next fits =>
        cases h
        refine ⟨rfl, ⟨owner, declared, sees, rfl, rfl⟩, fun index => ?_, rfl⟩
        simpa [index] using fits
  · rintro ⟨rfl, h⟩
    obtain ⟨owner, declared, sees, htype, howner⟩ := h.sees
    have fits : (field.index.isSome && !declared.type.isCollection) = false := by
      rw [Bool.and_eq_false_imp, ← htype]
      intro index
      rw [h.indexable index]
      rfl
    simp only [ResolvedField.segment, (findField_eq_some built).mpr sees, fits]
    rw [← htype, ← howner, ← h.parent]
    rfl

/-- It fails exactly when no type in the line of the entity declares the name, or when an index
stands on a field that is no collection. -/
theorem resolveSegment_eq_error (built : build enums entities = .ok c) {parent : Option Nat} :
    c.resolveSegment selector entity parent s = .error e ↔
      (∀ owner declared, ¬ c.Sees s.name entity owner declared) ∧
        e = .unresolvedField selector entity s.name ∨
      ∃ owner declared, c.Sees s.name entity owner declared ∧ s.index.isSome ∧
        ¬ declared.type.isCollection ∧ e = .invalidSelector selector (.notIndexable s.name) := by
  unfold resolveSegment
  split
  · next missing =>
    have unseen := (findField_eq_none built).mp missing
    rw [Except.error.injEq, eq_comm]
    exact ⟨fun h => .inl ⟨unseen, h⟩, fun
      | .inl h => h.2
      | .inr ⟨owner, declared, sees, _⟩ => absurd sees (unseen owner declared)⟩
  · next owner declared found =>
    have sees := (findField_eq_some built).mp found
    split
    · next misplaced =>
      rw [Bool.and_eq_true, Bool.not_eq_true'] at misplaced
      rw [Except.error.injEq, eq_comm]
      exact ⟨fun h => .inr ⟨owner, declared, sees, misplaced.1, by simp [misplaced.2], h⟩, fun
        | .inl h => absurd sees (h.1 owner declared)
        | .inr ⟨_, _, _, _, _, h⟩ => h⟩
    · next fits =>
      refine iff_of_false (by rintro ⟨⟩) ?_
      rintro (⟨unseen, -⟩ | ⟨owner', declared', sees', index, single, -⟩)
      · exact unseen owner declared sees
      · cases found.symm.trans ((findField_eq_some built).mpr sees')
        exact fits (by simp [index, single])

/-- The field of one more segment behind the fields that there are. -/
def nextField (c : Catalog) (selector root : String) (fields : List ResolvedField)
    (piece : List Char) : Except QueryError ResolvedField := do
  let s ← readSegment selector piece
  match fields.getLast? with
  | none => c.resolveSegment selector root none s
  | some previous =>
    match previous.type.navigable? with
    | none => .error (.unresolvedField selector previous.type.text s.name)
    | some entity => c.resolveSegment selector entity (some (fields.length - 1)) s

/-- Reading a piece of a selector is reading a segment. -/
theorem readSegment_eq_ok : readSegment selector piece = .ok s ↔ Segment.Spells piece s := by
  rw [← Segment.read_eq_ok, readSegment]
  cases Segment.read piece with
  | ok s' => exact Iff.of_eq (by rw [Except.ok.injEq, Except.ok.injEq])
  | error fault => exact iff_of_false (by rintro ⟨⟩) (by rintro ⟨⟩)

theorem readSegment_eq_error :
    readSegment selector piece = .error e ↔
      ∃ fault, Segment.Misspelled piece fault ∧ e = .invalidSelector selector fault := by
  simp only [← Segment.read_eq_error, readSegment]
  cases Segment.read piece with
  | ok s' => exact iff_of_false (by rintro ⟨⟩) (by rintro ⟨fault, ⟨⟩, -⟩)
  | error fault => simp [eq_comm]

/-- Behind a field that leads to an entity the next segment is looked up there. -/
theorem nextField_of_behind (on : entityBehind root fields = some entity) :
    c.nextField selector root fields piece =
      readSegment selector piece >>= c.resolveSegment selector entity (parentOf fields.length) := by
  obtain rfl | ⟨front, previous, rfl⟩ := List.eq_nil_or_concat' fields
  · cases on
    rfl
  · rw [entityBehind_concat] at on
    simp only [nextField, List.getLast?_concat, List.length_append, List.length_singleton,
      Nat.add_sub_cancel, on]
    rfl

/-- Behind any other field nothing can be looked up, but the segment is still read first: a
misspelled one is what is reported. -/
theorem nextField_of_end (last : fields.getLast? = some previous)
    (leads : previous.type.navigable? = none) :
    c.nextField selector root fields piece =
      readSegment selector piece >>= fun s =>
        .error (.unresolvedField selector previous.type.text s.name) := by
  simp only [nextField, last, leads]

/-- The fields lead to an entity, or else the last one leads to none. -/
theorem behind_or_end (root : String) (fields : List ResolvedField) :
    (∃ entity, entityBehind root fields = some entity) ∨
      entityBehind root fields = none ∧
        ∃ previous, fields.getLast? = some previous ∧ previous.type.navigable? = none := by
  unfold entityBehind
  cases last : fields.getLast? with
  | none => exact .inl ⟨root, rfl⟩
  | some previous =>
    cases leads : previous.type.navigable? with
    | none => exact .inr ⟨leads, previous, rfl, leads⟩
    | some entity => exact .inl ⟨entity, leads⟩

/-- One more segment gives a field that is found behind the others. -/
theorem nextField_eq_ok (built : build enums entities = .ok c) :
    c.nextField selector root fields piece = .ok field ↔
      Segment.Spells piece field.segment ∧
        ∃ entity, entityBehind root fields = some entity ∧
          c.Finds entity fields.length field := by
  obtain ⟨entity, on⟩ | ⟨none, previous, last, leads⟩ := behind_or_end root fields
  · rw [nextField_of_behind on, on]
    simp only [bind_eq_ok, readSegment_eq_ok, resolveSegment_eq_ok built]
    constructor
    · rintro ⟨s, spelled, rfl, found⟩
      exact ⟨spelled, entity, rfl, found⟩
    · rintro ⟨spelled, entity, ⟨⟩, found⟩
      exact ⟨_, spelled, rfl, found⟩
  · rw [nextField_of_end last leads, none]
    refine iff_of_false (fun h => ?_) (by rintro ⟨-, entity, ⟨⟩, -⟩)
    obtain ⟨s, -, ⟨⟩⟩ := bind_eq_ok.mp h

/-- One more segment fails for one of the four faults: it is misspelled, there is nothing behind the
last field, no such field is seen there, or it has an index and no elements. -/
theorem nextField_eq_error (built : build enums entities = .ok c)
    (known : (c.entity? root).isSome) (chain : c.Chain root fields) :
    c.nextField selector root fields piece = .error e ↔ c.Fault selector root fields piece e := by
  constructor
  · intro h
    cases hs : readSegment selector piece with
    -- the piece is read before it is known whether anything can be behind the last field
    | error e' =>
      obtain ⟨fault, misspelled, rfl⟩ := readSegment_eq_error.mp hs
      rw [nextField, hs] at h
      cases h
      exact .misspelled misspelled
    | ok s =>
      have spelled := readSegment_eq_ok.mp hs
      obtain ⟨entity, on⟩ | ⟨-, previous, last, leads⟩ := behind_or_end root fields
      · rw [nextField_of_behind on, hs] at h
        obtain ⟨unseen, rfl⟩ | ⟨owner, declared, sees, index, single, rfl⟩ :=
          (resolveSegment_eq_error built).mp h
        · exact .unseen spelled on (chain.entity? built known on) unseen
        · exact .notIndexable spelled on sees index single
      · rw [nextField_of_end last leads, hs] at h
        cases h
        exact .endOfPath spelled last leads
  · intro h
    cases h with
    | misspelled misspelled =>
      rw [nextField, readSegment_eq_error.mpr ⟨_, misspelled, rfl⟩]
      rfl
    | endOfPath spelled last leads =>
      rw [nextField_of_end last leads, readSegment_eq_ok.mpr spelled]
      rfl
    | unseen spelled on _ unseen =>
      rw [nextField_of_behind on, readSegment_eq_ok.mpr spelled]
      exact (resolveSegment_eq_error built).mpr (.inl ⟨unseen, rfl⟩)
    | notIndexable spelled on sees index single =>
      rw [nextField_of_behind on, readSegment_eq_ok.mpr spelled]
      exact (resolveSegment_eq_error built).mpr (.inr ⟨_, _, sees, index, single, rfl⟩)

end Catalog

end EntityQuery
