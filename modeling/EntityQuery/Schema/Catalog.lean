import EntityQuery.Schema.FieldType

/-!
# The catalog

The entity types that can be queried, with their fields and supertypes, and the enumerations that
fields refer to. A type has the fields of its supertypes too: a field is looked for along the
lineage of a type, from the type itself upward, so a redeclared field is the most derived one.

The lineage follows the supertypes for as many steps as there are types. That is enough exactly
when no type is its own ancestor, which `Catalog.build` makes sure of.
-/

namespace EntityQuery

/-- A field as an entity type declares it. -/
structure Field where
  name : String
  type : FieldType
  deriving DecidableEq

/-- An entity type. -/
structure EntityType where
  name : String
  supertype : Option String
  fields : List Field
  deriving DecidableEq

/-- The field that a type itself declares under a name; the first one counts. -/
def EntityType.field? (t : EntityType) (name : String) : Option Field :=
  t.fields.find? (·.name = name)

/-- An enumeration and its constants. -/
structure EnumType where
  name : String
  constants : List String
  deriving DecidableEq

/-- Whether a text is one of the constants, in the very same case. -/
def EnumType.contains (e : EnumType) (constant : String) : Bool := e.constants.contains constant

/-- The declared enumerations and entity types. -/
structure Catalog where
  enums : List EnumType
  entities : List EntityType
  deriving DecidableEq

namespace Catalog

def entity? (c : Catalog) (name : String) : Option EntityType :=
  c.entities.find? (·.name = name)

def enum? (c : Catalog) (name : String) : Option EnumType := c.enums.find? (·.name = name)

/-- The type of a name and its supertypes, nearest first, up to a number of them. -/
def ancestry (c : Catalog) : Nat → String → List EntityType
  | 0, _ => []
  | steps + 1, name =>
    match c.entity? name with
    | none => []
    | some t =>
      match t.supertype with
      | none => [t]
      | some parent => t :: c.ancestry steps parent

/-- The type of a name and all its supertypes, nearest first. -/
def lineage (c : Catalog) (name : String) : List EntityType :=
  c.ancestry c.entities.length name

/-- Looks for a field along a lineage, and finds the type that declares it too. -/
def fieldAlong (name : String) : List EntityType → Option (EntityType × Field)
  | [] => none
  | t :: ts =>
    match t.field? name with
    | some field => some (t, field)
    | none => fieldAlong name ts

/-- The field that a type has under a name, and the type that declares it. -/
def findField (c : Catalog) (type field : String) : Option (EntityType × Field) :=
  fieldAlong field (c.lineage type)

/-- All fields of a type, those of its supertypes in front of its own. -/
def allFields (c : Catalog) (type : String) : List Field :=
  (c.lineage type).reverse.flatMap (·.fields)

/-- Puts a name into a sorted list. -/
def insertName (name : String) : List String → List String
  | [] => [name]
  | n :: ns => if name ≤ n then name :: n :: ns else n :: insertName name ns

/-- The names of the entity types, sorted. -/
def entityNames (c : Catalog) : List String :=
  c.entities.foldr (fun t names => insertName t.name names) []

end Catalog

end EntityQuery
