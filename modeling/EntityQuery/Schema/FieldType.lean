import EntityQuery.Floating.Basic
import EntityQuery.Numeral.Width

/-!
# Declared types of fields

The type that an entity declares for a field. Collections nest to any depth, and may leave the type
of their elements open. The class of a type is the coarse view of it that paths carry.
-/

namespace EntityQuery

/-- The width of a numeric field. -/
inductive NumericWidth where
  | integral (w : IntWidth)
  | fractional (p : Precision)
  deriving DecidableEq

def NumericWidth.name : NumericWidth → String
  | .integral w => w.name
  | .fractional p => p.name

def NumericWidth.isIntegral : NumericWidth → Bool
  | .integral _ => true
  | .fractional _ => false

/-- The coarse class of a type. -/
inductive TypeClass where
  | string
  | character
  | numeric
  | boolean
  | dateTime
  | enumeration
  | composite
  deriving DecidableEq

/-- The kind of a collection; a generic one is neither a list nor a set. -/
inductive CollectionKind where
  | list
  | set
  | generic
  deriving DecidableEq

/-- The name of the kind in the text of a type. -/
def CollectionKind.name : CollectionKind → String
  | .list => "List"
  | .set => "Set"
  | .generic => "Collection"

/-- The declared type of a field. -/
inductive FieldType where
  | string
  | character
  | boolean
  | numeric (width : NumericWidth)
  /-- A calendar date, which is stored as the start of its day. -/
  | date
  | dateTime
  | enumeration (name : String)
  /-- A single related entity. -/
  | entity (name : String)
  /-- A type that only extensions know. -/
  | custom (name : String)
  | collection (kind : CollectionKind) (element : FieldType)
  /-- A collection that does not declare the type of its elements. -/
  | rawCollection (kind : CollectionKind)
  deriving DecidableEq

namespace FieldType

def classification : FieldType → TypeClass
  | .string => .string
  | .character => .character
  | .boolean => .boolean
  | .numeric _ => .numeric
  | .date | .dateTime => .dateTime
  | .enumeration _ => .enumeration
  | .entity _ | .custom _ | .collection _ _ | .rawCollection _ => .composite

def collectionKind? : FieldType → Option CollectionKind
  | .collection kind _ => some kind
  | .rawCollection kind => some kind
  | _ => none

def isCollection (t : FieldType) : Bool := t.collectionKind?.isSome

/-- The declared type of the elements of a collection. -/
def element? : FieldType → Option FieldType
  | .collection _ element => some element
  | _ => none

/-- How many collections there are around the innermost elements of a type. -/
def nesting : FieldType → Nat
  | .collection _ element => element.nesting + 1
  | _ => 0

/-- The entity that a selector goes on in behind a field of the type. -/
def navigable? : FieldType → Option String
  | .entity name => some name
  | .collection _ (.entity name) => some name
  | _ => none

/-- Whether a numeric type is one of integers; no answer for other types. -/
def isIntegral? : FieldType → Option Bool
  | .numeric width => some width.isIntegral
  | _ => none

def text : FieldType → String
  | .string => "String"
  | .character => "Char"
  | .boolean => "Boolean"
  | .numeric width => width.name
  | .date => "Date"
  | .dateTime => "DateTime"
  | .enumeration name | .entity name | .custom name => name
  | .collection kind element => kind.name ++ "<" ++ element.text ++ ">"
  | .rawCollection kind => kind.name

end FieldType

end EntityQuery
