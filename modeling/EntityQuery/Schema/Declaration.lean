import EntityQuery.Schema.Catalog

/-!
# Declaring a catalog

A list of declarations makes a catalog when every name is declared once, every name that is used
is declared, and no type is its own supertype, directly or through others. The checks run in that
order, and the first that fails names the declaration it failed at.
-/

namespace EntityQuery

/-- Why declarations do not make a catalog. -/
inductive CatalogError where
  | duplicateEnum (name : String)
  | duplicateEntity (name : String)
  | unknownSupertype (type supertype : String)
  | unknownEntity (type field name : String)
  | unknownEnum (type field name : String)
  | supertypeCycle (type : String)
  deriving DecidableEq

def CatalogError.message : CatalogError → String
  | .duplicateEnum name => "Enum '" ++ name ++ "' is declared twice"
  | .duplicateEntity name => "Type '" ++ name ++ "' is declared twice"
  | .unknownSupertype type supertype =>
    "Type '" ++ type ++ "' extends unknown type '" ++ supertype ++ "'"
  | .unknownEntity type field name =>
    "Field '" ++ type ++ "." ++ field ++ "' refers to unknown entity type '" ++ name ++ "'"
  | .unknownEnum type field name =>
    "Field '" ++ type ++ "." ++ field ++ "' refers to unknown enum type '" ++ name ++ "'"
  | .supertypeCycle type => "Supertype cycle detected at type '" ++ type ++ "'"

namespace Catalog

/-- The first name of a list that occurs again in it or in the names already taken. -/
def firstRepeated (taken : List String) : List String → Option String
  | [] => none
  | name :: names => if name ∈ taken then some name else firstRepeated (name :: taken) names

/-- Whether the supertypes of a type run out within a number of steps. -/
def runsOut (c : Catalog) : Nat → String → Bool
  | 0, _ => false
  | steps + 1, name =>
    match (c.entity? name).bind (·.supertype) with
    | none => true
    | some parent => c.runsOut steps parent

/-- Checks that a type of a field refers to declared names only. -/
def checkReferences (c : Catalog) (type field : String) : FieldType → Except CatalogError Unit
  | .entity name =>
    if (c.entity? name).isSome then .ok () else .error (.unknownEntity type field name)
  | .enumeration name =>
    if (c.enum? name).isSome then .ok () else .error (.unknownEnum type field name)
  | .collection _ element => c.checkReferences type field element
  | _ => .ok ()

def checkSupertype (c : Catalog) (t : EntityType) : Except CatalogError Unit :=
  match t.supertype with
  | none => .ok ()
  | some parent =>
    if (c.entity? parent).isSome then .ok () else .error (.unknownSupertype t.name parent)

/-- Checks that the fields of a type refer to declared names only. -/
def checkFields (c : Catalog) (t : EntityType) : Except CatalogError Unit :=
  t.fields.forM fun field => c.checkReferences t.name field.name field.type

/-- Checks that all names are declared once; enumerations and types share their names. -/
def checkNames (c : Catalog) : Except CatalogError Unit :=
  let enumNames := c.enums.map (·.name)
  match firstRepeated [] enumNames with
  | some name => .error (.duplicateEnum name)
  | none =>
    match firstRepeated enumNames (c.entities.map (·.name)) with
    | some name => .error (.duplicateEntity name)
    | none => .ok ()

/-- Checks that a type is not its own ancestor. -/
def checkCycle (c : Catalog) (t : EntityType) : Except CatalogError Unit :=
  if c.runsOut c.entities.length t.name then .ok () else .error (.supertypeCycle t.name)

/-- The catalog of a list of declarations, if they fit together. -/
def build (enums : List EnumType) (entities : List EntityType) : Except CatalogError Catalog := do
  let c : Catalog := ⟨enums, entities⟩
  c.checkNames
  entities.forM fun t => do
    c.checkSupertype t
    c.checkFields t
  entities.forM c.checkCycle
  return c

end Catalog

end EntityQuery
