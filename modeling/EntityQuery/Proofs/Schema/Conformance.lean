import EntityQuery.Expression.Evaluation
import EntityQuery.Schema.Catalog

/-!
# Records that conform to the catalog

`Value.Fits` says that a value may stand in a field of a declared type: it is null, or of the kind
of the type; a collection holds values that fit its elements, and a related entity is a record that
conforms in turn. `Record.Conforms` says so of every field that a type has, its inherited ones
included. Types that the library knows nothing about hold any value.

What a path reaches through a field is not always what the field holds: of a collection it is the
elements. `FieldType.candidate?` is the type of what is reached, and a collection that leaves its
elements open has none.
-/

namespace EntityQuery

mutual

/-- A value may stand in a field of a type. -/
inductive Value.Fits (c : Catalog) : FieldType → Value → Prop
  | null (type : FieldType) : Value.Fits c type .null
  | text (s : String) : Value.Fits c .string (.text s)
  | character (x : Char) : Value.Fits c .character (.character x)
  | boolean (b : Bool) : Value.Fits c .boolean (.boolean b)
  | integer {w : IntWidth} (n : SizedInt) (h : n.width = w) :
    Value.Fits c (.numeric (.integral w)) (.integer n)
  | floating (p : Precision) (x : Floating) :
    Value.Fits c (.numeric (.fractional p)) (.floating p x)
  | date (t : DateTime) : Value.Fits c .date (.dateTime t)
  | dateTime (t : DateTime) : Value.Fits c .dateTime (.dateTime t)
  | constant (enum name : String) : Value.Fits c (.enumeration enum) (.constant name)
  | record {entity : String} {r : Record} (h : Record.Conforms c entity r) :
    Value.Fits c (.entity entity) (.record r)
  | custom (name : String) (v : Value) : Value.Fits c (.custom name) v
  | list (kind : CollectionKind) {element : FieldType} {items : List Value}
    (h : ∀ v ∈ items, Value.Fits c element v) :
    Value.Fits c (.collection kind element) (.list items)
  | rawList (kind : CollectionKind) (items : List Value) :
    Value.Fits c (.rawCollection kind) (.list items)

/-- Every field that a type has holds a value of its declared type. -/
inductive Record.Conforms (c : Catalog) : String → Record → Prop
  | intro {entity : String} {r : Record}
    (h : ∀ field owner declared, c.findField entity field = some (owner, declared) →
      Value.Fits c declared.type (r.get field)) : Record.Conforms c entity r

end

namespace FieldType

/-- The type of the values that a path reaches through a field: that of the elements, if the field
is a collection. -/
def candidate? : FieldType → Option FieldType
  | .collection _ element => some element
  | .rawCollection _ => none
  | t => some t

/-- Whether values of the type have an order of their own: strings, characters, truth values,
integers, moments and constants. -/
def isComparable : FieldType → Bool
  | .string | .character | .boolean | .date | .dateTime | .enumeration _ => true
  | .numeric width => width.isIntegral
  | _ => false

theorem candidate?_of_navigable? {t : FieldType} {entity : String}
    (h : t.navigable? = some entity) : t.candidate? = some (.entity entity) := by
  unfold navigable? at h
  split at h
  · cases h
    rfl
  · cases h
    rfl
  · cases h

end FieldType

/-! ## Fields of a record -/

namespace Catalog

variable {c : Catalog} {entity : String}

/-- A field that is found along a lineage is declared in it, under its name. -/
theorem fieldAlong_mem {name : String} {types : List EntityType} {owner : EntityType}
    {declared : Field} (h : fieldAlong name types = some (owner, declared)) :
    owner ∈ types ∧ declared ∈ owner.fields ∧ declared.name = name := by
  induction types with
  | nil => cases h
  | cons t ts ih =>
    rw [fieldAlong] at h
    split at h
    · next field found =>
      cases h
      have named := List.find?_some found
      exact ⟨List.mem_cons_self, List.mem_of_find?_eq_some found, of_decide_eq_true named⟩
    · obtain ⟨mem, rest⟩ := ih h
      exact ⟨List.mem_cons_of_mem _ mem, rest⟩

/-- A field that is found is among all fields, so a record that conforms has a value for it that
fits. -/
theorem mem_allFields_of_findField {field : String} {owner : EntityType} {declared : Field}
    (h : c.findField entity field = some (owner, declared)) :
    declared ∈ c.allFields entity ∧ declared.name = field := by
  obtain ⟨mem, own, named⟩ := fieldAlong_mem h
  exact ⟨List.mem_flatMap.mpr ⟨owner, List.mem_reverse.mpr mem, own⟩, named⟩

end Catalog

namespace Record

variable {c : Catalog} {entity : String} {r : Record}

/-- A record conforms when the values of all fields, inherited ones included, fit their types. -/
theorem conforms_of_allFields
    (h : ∀ declared ∈ c.allFields entity, Value.Fits c declared.type (r.get declared.name)) :
    r.Conforms c entity := by
  refine .intro fun field owner declared found => ?_
  obtain ⟨mem, rfl⟩ := Catalog.mem_allFields_of_findField found
  exact h declared mem

/-- The value of a field that is found fits its type. -/
theorem Conforms.get (h : r.Conforms c entity) {field : String} {owner : EntityType}
    {declared : Field} (found : c.findField entity field = some (owner, declared)) :
    Value.Fits c declared.type (r.get field) := by
  cases h with
  | intro h => exact h field owner declared found

end Record

/-! ## Comparing values that fit -/

namespace Value

variable {c : Catalog} {t : FieldType} {a b : Value}

/-- Two values that fit one comparable type can be compared, unless one of them is null. -/
theorem Fits.compare_isSome (comparable : t.isComparable) (ha : a.Fits c t) (hb : b.Fits c t)
    (hna : a.isNull = false) (hnb : b.isNull = false) : (a.compare b).isSome := by
  cases ha with
  | null => cases hna
  | floating | record | custom | list | rawList => cases comparable
  | text | character | boolean | integer | date | dateTime | constant =>
    cases hb <;> first
      | rfl
      | cases hnb

/-- A value of a string field is null or a text. -/
theorem Fits.string_cases (h : a.Fits c .string) : a = .null ∨ ∃ s, a = .text s := by
  cases h with
  | null => exact .inl rfl
  | text s => exact .inr ⟨s, rfl⟩

theorem Fits.boolean_cases (h : a.Fits c .boolean) : a = .null ∨ ∃ b, a = .boolean b := by
  cases h with
  | null => exact .inl rfl
  | boolean b => exact .inr ⟨b, rfl⟩

end Value

end EntityQuery
