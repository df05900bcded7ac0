import EntityQuery.Proofs.Schema.Walk

/-!
# Inherited fields

A type has its own fields and those of its supertypes. Two walks say so: the search for a field goes
up and stops at the first type that declares the name, the listing goes up to the end and then lists
what the types declare from the top down. Both see the same types (`Gathers`), so a name is found
exactly if it is listed.

A name may be declared again further down, and more than once by one type. The search finds the
first declaration of the nearest type (`findField_eq_some_iff`). In the listing this is the last
type of those that declare the name, for the types below it come behind it
(`findField_agrees_with_allFields`).
-/

namespace EntityQuery

/-! ## Declarations of one type -/

namespace EntityType

variable {t : EntityType} {name : String} {field : Field}

/-- A type itself declares a field of a name. -/
def Declares (t : EntityType) (name : String) : Prop := ∃ field ∈ t.fields, field.name = name

/-- A field is the first of a name that a type itself declares. -/
def DeclaresFirst (t : EntityType) (name : String) (field : Field) : Prop :=
  ∃ before behind, t.fields = before ++ field :: behind ∧ field.name = name ∧
    ∀ earlier ∈ before, earlier.name ≠ name

/-- A type has a field as its first declaration of the name. -/
theorem field?_eq_some_iff : t.field? name = some field ↔ t.DeclaresFirst name field := by
  rw [field?, List.find?_eq_some_iff_append, DeclaresFirst]
  simp only [decide_eq_true_eq, Bool.not_eq_true', decide_eq_false_iff_not]
  constructor
  · rintro ⟨named, before, behind, split, others⟩
    exact ⟨before, behind, split, named, others⟩
  · rintro ⟨before, behind, split, named, others⟩
    exact ⟨named, before, behind, split, others⟩

theorem field?_eq_none_iff : t.field? name = none ↔ ¬t.Declares name := by
  rw [field?, List.find?_eq_none, Declares]
  simp only [decide_eq_true_eq, not_exists, not_and]

theorem isSome_field?_iff : (t.field? name).isSome ↔ t.Declares name := by
  rw [field?, List.find?_isSome, Declares]
  simp only [decide_eq_true_eq]

end EntityType

namespace Catalog

variable {enums : List EnumType} {entities : List EntityType} {c : Catalog}
  {entity name : String} {t owner : EntityType} {field : Field}
  {current : Option EntityType} {steps steps' : Nat} {line line' : List EntityType}

/-! ## Types in a line -/

/-- The field along a line is what the first type gives that has one of its own. -/
theorem fieldAlong_eq_findSome? (name : String) (line : List EntityType) :
    fieldAlong name line = line.findSome? fun t => (t.field? name).map (t, ·) := by
  induction line with
  | nil => rfl
  | cons t line ih =>
    rw [fieldAlong, List.findSome?_cons]
    cases t.field? name with
    | some own => rfl
    | none => exact ih

/-- Along a line of types a field is that of the nearest one that declares it. -/
theorem fieldAlong_eq_some_iff :
    fieldAlong name line = some (owner, field) ↔
      ∃ nearer further, line = nearer ++ owner :: further ∧
        (∀ t ∈ nearer, ¬t.Declares name) ∧ owner.DeclaresFirst name field := by
  have own (t : EntityType) : (t.field? name).map (t, ·) = some (owner, field) ↔
      t = owner ∧ owner.DeclaresFirst name field := by
    simp only [Option.map_eq_some_iff, Prod.mk.injEq, EntityType.field?_eq_some_iff]
    constructor
    · rintro ⟨field, first, rfl, rfl⟩
      exact ⟨rfl, first⟩
    · rintro ⟨rfl, first⟩
      exact ⟨field, first, rfl, rfl⟩
  simp only [fieldAlong_eq_findSome?, List.findSome?_eq_some_iff, own, Option.map_eq_none_iff,
    EntityType.field?_eq_none_iff]
  constructor
  · rintro ⟨nearer, t, further, split, ⟨rfl, first⟩, passed⟩
    exact ⟨nearer, further, split, passed, first⟩
  · rintro ⟨nearer, further, split, passed, first⟩
    exact ⟨nearer, owner, further, split, ⟨rfl, first⟩, passed⟩

theorem fieldAlong_isSome_iff :
    (fieldAlong name line).isSome ↔ ∃ t ∈ line, t.Declares name := by
  simp only [fieldAlong_eq_findSome?, List.findSome?_isSome_iff, Option.isSome_map,
    EntityType.isSome_field?_iff]

/-! ## Supertypes -/

/-- There is one line of types above a type. -/
theorem Gathers.unique (h : c.Gathers current steps line) (h' : c.Gathers current steps' line') :
    line = line' := by
  induction h generalizing steps' line' with
  | ended =>
    cases h'
    rfl
  | further _ ih =>
    cases h' with
    | further rest => rw [ih rest]

/-- The line of a type is what the walk without a bound gathers. -/
theorem lineage_eq_iff (built : build enums entities = .ok c) :
    c.lineage entity = line ↔ ∃ steps, c.Gathers (c.entity? entity) steps line := by
  obtain ⟨taken, -, gathers⟩ := gathers_lineage built entity
  constructor
  · rintro rfl
    exact ⟨taken, gathers⟩
  · rintro ⟨steps, other⟩
    exact gathers.unique other

/-- The field that is found is the first declaration of the nearest type above that declares the
name. -/
theorem findField_eq_some_iff (built : build enums entities = .ok c) :
    c.findField entity name = some (owner, field) ↔
      ∃ steps nearer further, c.Gathers (c.entity? entity) steps (nearer ++ owner :: further) ∧
        (∀ t ∈ nearer, ¬t.Declares name) ∧ owner.DeclaresFirst name field := by
  rw [findField, fieldAlong_eq_some_iff]
  constructor
  · rintro ⟨nearer, further, line, passed, first⟩
    obtain ⟨steps, gathers⟩ := (lineage_eq_iff built).mp line
    exact ⟨steps, nearer, further, gathers, passed, first⟩
  · rintro ⟨steps, nearer, further, gathers, passed, first⟩
    exact ⟨nearer, further, (lineage_eq_iff built).mpr ⟨steps, gathers⟩, passed, first⟩

/-- A field is found exactly when one of that name is among all fields. -/
theorem findField_isSome_iff :
    (c.findField entity name).isSome ↔ ∃ field ∈ c.allFields entity, field.name = name := by
  rw [findField, fieldAlong_isSome_iff, allFields]
  constructor
  · rintro ⟨t, mem, field, own, named⟩
    exact ⟨field, List.mem_flatMap.mpr ⟨t, List.mem_reverse.mpr mem, own⟩, named⟩
  · rintro ⟨field, mem, named⟩
    obtain ⟨t, mem, own⟩ := List.mem_flatMap.mp mem
    exact ⟨t, List.mem_reverse.mp mem, field, own, named⟩

/-- The fields of a type are those of its supertype and behind them its own. -/
theorem allFields_eq (built : build enums entities = .ok c) (ht : c.entity? entity = some t) :
    c.allFields entity = t.supertype.elim [] c.allFields ++ t.fields := by
  rw [allFields]
  cases hp : t.supertype with
  | none => rw [lineage_of_top ht hp, List.reverse_singleton, List.flatMap_singleton]; rfl
  | some parent =>
    rw [lineage_of_supertype built ht hp, List.reverse_cons, List.flatMap_append,
      List.flatMap_singleton]
    rfl

/-- A type that is not declared has no fields. -/
theorem allFields_of_unknown (ht : c.entity? entity = none) : c.allFields entity = [] := by
  rw [allFields, lineage_of_unknown ht]
  rfl

/-- The type that a field is found at is the last in the listing that declares the name. -/
theorem exists_allFields_eq (h : c.findField entity name = some (owner, field)) :
    ∃ inherited below, c.allFields entity = inherited ++ owner.fields ++ below ∧
      ∀ later ∈ below, later.name ≠ name := by
  obtain ⟨nearer, further, line, passed, -⟩ := fieldAlong_eq_some_iff.mp h
  refine ⟨further.reverse.flatMap (·.fields), nearer.reverse.flatMap (·.fields), ?_, ?_⟩
  · rw [allFields, line, List.reverse_append, List.reverse_cons, List.flatMap_append,
      List.flatMap_append, List.flatMap_singleton]
  · intro later mem named
    obtain ⟨t, ht, own⟩ := List.mem_flatMap.mp mem
    exact passed t (List.mem_reverse.mp ht) ⟨later, own, named⟩

/-- Looking a field up agrees with listing the fields, whatever is declared again. In a built
catalog a type lists what its supertype lists and behind that its own fields in the order of their
declaration; an unknown type lists nothing. A name is found on a type exactly if it is listed. What
is found is the nearest type that declares the name, among the type, its supertype and so on, with
its first declaration of it: a type that declares the name itself hides all others. So no field of
the name is listed behind the fields of the type that it is found at. -/
theorem findField_agrees_with_allFields (built : build enums entities = .ok c) (entity : String) :
    (∀ t, c.entity? entity = some t →
      c.allFields entity = t.supertype.elim [] c.allFields ++ t.fields) ∧
    (c.entity? entity = none → c.allFields entity = []) ∧
    ∀ name,
      ((c.findField entity name).isSome ↔ ∃ field ∈ c.allFields entity, field.name = name) ∧
      (∀ owner field, c.findField entity name = some (owner, field) ↔
        ∃ steps nearer further, c.Gathers (c.entity? entity) steps (nearer ++ owner :: further) ∧
          (∀ t ∈ nearer, ¬t.Declares name) ∧ owner.DeclaresFirst name field) ∧
      (∀ t, c.entity? entity = some t → t.Declares name →
        ∃ field, t.DeclaresFirst name field ∧ c.findField entity name = some (t, field)) ∧
      ∀ owner field, c.findField entity name = some (owner, field) →
        ∃ inherited below, c.allFields entity = inherited ++ owner.fields ++ below ∧
          ∀ later ∈ below, later.name ≠ name := by
  refine ⟨fun t => allFields_eq built, allFields_of_unknown, fun name => ⟨findField_isSome_iff,
    fun owner field => findField_eq_some_iff built, fun t ht declares => ?_,
    fun owner field => exists_allFields_eq⟩⟩
  obtain ⟨field, first⟩ := Option.isSome_iff_exists.mp (EntityType.isSome_field?_iff.mpr declares)
  have own : c.Sees name entity t field := .own ht first
  exact ⟨field, EntityType.field?_eq_some_iff.mp first, (findField_eq_some built).mpr own⟩

/-- Bolts are parts, which declare the label again that they inherit, and do so twice. -/
def relabelled : Catalog :=
  ⟨[], [⟨"Thing", none, [⟨"id", .string⟩, ⟨"label", .string⟩]⟩,
    ⟨"Part", some "Thing", [⟨"size", .string⟩, ⟨"label", .character⟩, ⟨"label", .boolean⟩]⟩,
    ⟨"Bolt", some "Part", [⟨"id", .character⟩]⟩]⟩

/-- A bolt has the first label of a part, an identity of its own, and no name. -/
theorem findField_agrees_with_allFields_bolt :
    build relabelled.enums relabelled.entities = .ok relabelled ∧
    ((relabelled.findField "Bolt" "label").map fun found => (found.1.name, found.2.type)) =
      some ("Part", .character) ∧
    (∃ bolt, relabelled.entity? "Bolt" = some bolt ∧
      relabelled.findField "Bolt" "id" = some (bolt, ⟨"id", .character⟩)) ∧
    relabelled.findField "Bolt" "name" = none := by
  have built : build relabelled.enums relabelled.entities = .ok relabelled := by decide +kernel
  obtain ⟨-, -, agrees⟩ := findField_agrees_with_allFields built "Bolt"
  refine ⟨built, ?_, ?_, ?_⟩
  · have nearest := ((agrees "label").2.1 ⟨"Part", some "Thing", _⟩ ⟨"label", .character⟩).mpr
      ⟨3, [⟨"Bolt", some "Part", _⟩], [⟨"Thing", none, _⟩],
        .further (.further (.further .ended)), by unfold EntityType.Declares; decide,
        [⟨"size", .string⟩], [⟨"label", .boolean⟩], rfl, rfl, by decide⟩
    rw [nearest, Option.map_some]
  · have declares : EntityType.Declares ⟨"Bolt", some "Part", [⟨"id", .character⟩]⟩ "id" :=
      ⟨_, List.mem_cons_self, rfl⟩
    obtain ⟨field, ⟨before, behind, split, named, others⟩, found⟩ :=
      (agrees "id").2.2.1 _ rfl declares
    cases before with
    | nil =>
      cases split
      exact ⟨_, rfl, found⟩
    | cons first before => cases before <;> cases split
  · have unlisted : ¬∃ field ∈ relabelled.allFields "Bolt", field.name = "name" := by decide
    rw [← (agrees "name").1, Option.not_isSome_iff_eq_none] at unlisted
    exact unlisted

end Catalog

end EntityQuery
