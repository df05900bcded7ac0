import EntityQuery.Numeral.Integer
import EntityQuery.Schema.FieldType
import EntityQuery.Text.Lowercase

/-!
# Paths

Where a value is found from a root record: by the name of a field, in every element of a
collection, or in one of them. A path shows its root by an alias, the name of the entity in lower
case, and carries the class of what it leads to.
-/

namespace EntityQuery

/-- A step of a path. -/
inductive PathStep where
  /-- The field of a record. -/
  | property (name : String)
  /-- Every element of a list. -/
  | any
  /-- One element of a list. -/
  | index (i : UInt64)
  deriving DecidableEq

/-- A way from a root record to a value. -/
structure Path where
  rootAlias : String
  steps : List PathStep
  kind : TypeClass
  deriving DecidableEq

namespace Path

/-- The path to the record of an entity itself. -/
def root (entity : String) : Path := ⟨Text.lowercase entity, [], .composite⟩

/-- The path to a field behind the path. -/
def property (p : Path) (name : String) (c : TypeClass) : Path :=
  ⟨p.rootAlias, p.steps ++ [.property name], c⟩

/-- The path to every element of the collection behind the path. -/
def any (p : Path) (c : TypeClass) : Path := ⟨p.rootAlias, p.steps ++ [.any], c⟩

/-- The path to one element of the collection behind the path. -/
def index (p : Path) (i : UInt64) (c : TypeClass) : Path := ⟨p.rootAlias, p.steps ++ [.index i], c⟩

/-- Whether the path leads to the root record. -/
def isRoot (p : Path) : Bool := p.steps.isEmpty

/-- Whether the path may lead to more than one value. -/
def isMultiValued (p : Path) : Bool := p.steps.contains .any

/-- The last field on the way, or the alias if there is none. -/
def leafName (p : Path) : String :=
  (p.steps.reverse.findSome? fun
    | .property name => some name
    | _ => none).getD p.rootAlias

def stepText : PathStep → String
  | .property name => "." ++ name
  | .any => "[*]"
  | .index i => "[" ++ Numeral.decimal i.toNat ++ "]"

def text (p : Path) : String := p.steps.foldl (fun s step => s ++ stepText step) p.rootAlias

end Path

end EntityQuery
