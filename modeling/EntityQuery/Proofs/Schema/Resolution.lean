import EntityQuery.Proofs.Failure
import EntityQuery.Proofs.Schema.Conformance
import EntityQuery.Schema.Selector

/-!
# Where a selector leads

The fields that a selector resolves to form a chain: each is declared by the entity that the one
before it leads to (`Catalog.Leads`). A path goes through each of them by its name, and behind a
collection to its elements (`ResolvedField.steps`). The chain carries conformance along the path:
from a record that conforms to the root, whatever is reached fits the type of the last field
(`Leads.followAll_fits`).
-/

namespace EntityQuery

/-- The step behind a collection: to the element that the segment names, or else to all. -/
def ResolvedField.elementStep (field : ResolvedField) : PathStep :=
  match field.index with
  | some i => .index i
  | none => .any

def ResolvedField.steps (field : ResolvedField) : List PathStep :=
  if field.type.isCollection then [.property field.name, field.elementStep]
  else [.property field.name]

namespace Catalog

variable {c : Catalog} {entity : String} {field leaf : ResolvedField} {fields : List ResolvedField}

/-- An entity has a field, with the type that the resolved field carries. -/
def Declares (c : Catalog) (entity : String) (field : ResolvedField) : Prop :=
  ∃ owner declared, c.findField entity field.name = some (owner, declared) ∧
    declared.type = field.type

/-- A chain of fields from an entity to a leaf, each but the last leading to a further entity. -/
inductive Leads (c : Catalog) : String → List ResolvedField → ResolvedField → Prop
  | last {entity : String} {leaf : ResolvedField} (h : c.Declares entity leaf) :
    Leads c entity [leaf] leaf
  | onward {entity next : String} {field leaf : ResolvedField} {fields : List ResolvedField}
    (h : c.Declares entity field) (on : field.type.navigable? = some next)
    (rest : Leads c next fields leaf) : Leads c entity (field :: fields) leaf

/-- A segment that resolves is a field that its entity declares or inherits. -/
theorem declares_of_resolveSegment {selector : String} {parent : Option Nat} {segment : Segment}
    (h : c.resolveSegment selector entity parent segment = .ok field) :
    c.Declares entity field := by
  unfold resolveSegment at h
  split at h
  · cases h
  · next owner declared found =>
    split at h
    · cases h
    · cases h
      exact ⟨owner, declared, found, rfl⟩

/-- The fields behind a field go on the chain from it. -/
theorem leads_of_resolveBehind {selector : String} {position : Nat} {previous : ResolvedField}
    {segments : List (List Char)} (declared : c.Declares entity previous)
    (h : c.resolveBehind selector position previous segments = .ok (fields, leaf)) :
    c.Leads entity fields leaf := by
  induction segments generalizing entity position previous fields leaf with
  | nil =>
    cases h
    exact .last declared
  | cons segment rest ih =>
    rw [resolveBehind] at h
    obtain ⟨s, -, h⟩ := bind_eq_ok.mp h
    split at h
    · cases h
    · next next on =>
      obtain ⟨field, hfield, h⟩ := bind_eq_ok.mp h
      obtain ⟨⟨fs, l⟩, hrest, h⟩ := bind_eq_ok.mp h
      cases h
      exact .onward declared on (ih (declares_of_resolveSegment hfield) hrest)

theorem Leads.getLast?_eq (h : c.Leads entity fields leaf) : fields.getLast? = some leaf := by
  induction h with
  | last _ => rfl
  | onward _ _ _ ih =>
    rw [List.getLast?_cons, ih]
    rfl

/-- What has been found when a selector resolves: its root is known and it is not blank, a first
segment has given a field, and the fields behind this one are those of the result. -/
theorem exists_of_resolve {root selector : String} {s : ResolvedSelector}
    (h : c.resolve root selector = .ok s) :
    (c.entity? root).isSome ∧ (¬ ∀ x ∈ selector.toList, Text.isBlank x) ∧
      s.selector = selector ∧ s.root = root ∧
      ∃ segment field behind, c.resolveSegment selector root none segment = .ok field ∧
        c.resolveBehind selector 0 field behind = .ok (s.fields, s.leaf) := by
  unfold resolve at h
  split at h
  · cases h
  · next known =>
    rw [Option.isNone_iff_eq_none] at known
    split at h
    · cases h
    · next nonblank =>
      rw [List.all_eq_true] at nonblank
      split at h
      · cases h
      · obtain ⟨segment, -, h⟩ := bind_eq_ok.mp h
        obtain ⟨field, hfield, h⟩ := bind_eq_ok.mp h
        obtain ⟨⟨fields, leaf⟩, hbehind, h⟩ := bind_eq_ok.mp h
        cases h
        exact ⟨Option.isSome_iff_ne_none.mpr known, nonblank, rfl, rfl, segment, field, _, hfield,
          hbehind⟩

/-- A selector resolves to a chain of fields from its root. -/
theorem leads_of_resolve {root selector : String} {s : ResolvedSelector}
    (h : c.resolve root selector = .ok s) : s.root = root ∧ c.Leads root s.fields s.leaf := by
  obtain ⟨-, -, -, hroot, segment, field, behind, hfield, hbehind⟩ := exists_of_resolve h
  exact ⟨hroot, leads_of_resolveBehind (declares_of_resolveSegment hfield) hbehind⟩

end Catalog

/-! ## What a path reaches -/

namespace PathStep

/-- The values behind two runs of steps are those behind the second from what is behind the
first. -/
theorem followAll_append (front behind : List PathStep) (values : List Value) :
    followAll (front ++ behind) values = followAll behind (followAll front values) := by
  induction front generalizing values with
  | nil => rfl
  | cons step steps ih => rw [List.cons_append, followAll, ih, followAll]

variable {c : Catalog} {t : FieldType} {v : Value}

/-- Through a field of a record comes what the record holds there. -/
theorem follow_property_fits {entity name : String} {owner : EntityType} {declared : Field}
    (found : c.findField entity name = some (owner, declared)) (h : v.Fits c (.entity entity)) :
    ∀ w ∈ (property name).follow v, w.Fits c declared.type := by
  intro w hw
  cases h with
  | null => cases hw
  | record conforms =>
    rw [List.mem_singleton.mp hw]
    exact conforms.get found

/-- Behind a collection come elements of it. -/
theorem follow_elementStep_fits {kind : CollectionKind} (field : ResolvedField)
    (h : v.Fits c (.collection kind t)) :
    ∀ w ∈ field.elementStep.follow v, w.Fits c t := by
  intro w hw
  unfold ResolvedField.elementStep at hw
  split at hw
  · cases h with
    | null => cases hw
    | list kind each => exact each w (List.mem_of_getElem? (Option.mem_toList.mp hw))
  · cases h with
    | null => cases hw
    | list kind each => exact each w hw

end PathStep

namespace Catalog

variable {c : Catalog} {entity : String} {field leaf : ResolvedField} {fields : List ResolvedField}

/-- Through a field that an entity has, records of the entity lead to values of the type that is
reached. -/
theorem Declares.followAll_fits {t : FieldType} (h : c.Declares entity field)
    (ht : field.type.candidate? = some t) {values : List Value}
    (fits : ∀ v ∈ values, v.Fits c (.entity entity)) :
    ∀ w ∈ PathStep.followAll field.steps values, w.Fits c t := by
  obtain ⟨owner, declared, found, same⟩ := h
  have held : ∀ w ∈ values.flatMap (PathStep.property field.name).follow,
      w.Fits c field.type := by
    intro w hw
    obtain ⟨v, hv, hw⟩ := List.mem_flatMap.mp hw
    exact same ▸ PathStep.follow_property_fits found (fits v hv) w hw
  intro w hw
  -- a second step goes into a collection, and into nothing else
  unfold ResolvedField.steps at hw
  split at hw
  · next collection =>
    obtain ⟨v, hv, hw⟩ := List.mem_flatMap.mp hw
    have hvt := held v hv
    cases htype : field.type with
    | collection kind element =>
      rw [htype] at ht hvt
      cases ht
      exact PathStep.follow_elementStep_fits field hvt w hw
    | rawCollection kind =>
      rw [htype] at ht
      cases ht
    | _ =>
      rw [htype] at collection
      cases collection
  · next single =>
    have hwt := held w hw
    cases htype : field.type with
    | collection kind element =>
      rw [htype] at single
      exact absurd rfl single
    | rawCollection kind =>
      rw [htype] at single
      exact absurd rfl single
    | _ =>
      rw [htype] at ht hwt
      cases ht
      exact hwt

/-- Along a chain of fields, records of the entity it starts at lead to values of the type that
its leaf reaches. -/
theorem Leads.followAll_fits {t : FieldType} (h : c.Leads entity fields leaf)
    (ht : leaf.type.candidate? = some t) {values : List Value}
    (fits : ∀ v ∈ values, v.Fits c (.entity entity)) :
    ∀ w ∈ PathStep.followAll (fields.flatMap ResolvedField.steps) values, w.Fits c t := by
  induction h generalizing values with
  | last declared =>
    rw [List.flatMap_singleton]
    exact declared.followAll_fits ht fits
  | onward declared on rest ih =>
    rw [List.flatMap_cons, PathStep.followAll_append]
    exact ih ht (declared.followAll_fits (FieldType.candidate?_of_navigable? on) fits)

end Catalog

end EntityQuery
