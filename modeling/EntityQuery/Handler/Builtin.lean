import EntityQuery.Handler.Literal
import EntityQuery.Handler.Predicate

/-!
# The built-in handlers

One handler for each family of types, in the order in which they are asked. The last one supports
every type, keeps literals as they are, and knows the predicates that all types have.
-/

namespace EntityQuery.Handler

def string : Handler where
  name := "string"
  supports t := t = .string
  extend := Path.throughField
  coerce _ := coerceEach fun literal => .ok (.text literal)
  predicate := stringPredicate

/-- Single characters; of a literal the first one counts. -/
def character : Handler where
  name := "character"
  supports t := t = .character
  extend := Path.throughField
  coerce _ := coerceEach fun literal => .ok (Literal.character literal)
  predicate := basePredicate

def isNumeric : FieldType → Bool
  | .numeric _ => true
  | _ => false

/-- Numbers of every width. -/
def numeric : Handler where
  name := "numeric"
  supports := isNumeric
  extend := Path.throughField
  coerce c := coerceEach (Literal.number c)
  predicate := numericPredicate

/-- Dates, with a time of day or without. -/
def date : Handler where
  name := "date"
  supports t := t = .date || t = .dateTime
  extend := Path.throughField
  coerce c := coerceEach (Literal.dateTime c)
  predicate := datePredicate

/-- Truth values. -/
def boolean : Handler where
  name := "boolean"
  supports t := t = .boolean
  extend := Path.throughField
  coerce c := coerceEach (Literal.boolean c)
  predicate := booleanPredicate

/-- The name of the handler of a kind of collection. -/
def collectionName : CollectionKind → String
  | .list => "list"
  | .set => "set"
  | .generic => "collection"

/-- Collections of one kind. Literals are those of the elements, and stay texts if the type of the
elements is not declared. -/
def collection (kind : CollectionKind) : Handler where
  name := collectionName kind
  supports t := t.collectionKind? = some kind
  extend := Path.throughCollection
  coerce c literals :=
    match c.field.element? with
    | some element => c.read element.type { c.toLiteralSetting with field := element } literals
    | none => .ok (Operand.ofTexts literals)
  predicate := basePredicate

def isEnumeration : FieldType → Bool
  | .enumeration _ => true
  | _ => false

def enumeration : Handler where
  name := "enum"
  supports := isEnumeration
  extend := Path.throughField
  coerce c := coerceEach (Literal.constant c)
  predicate := basePredicate

/-- Everything else. -/
def base : Handler where
  name := "base"
  supports _ := true
  extend := Path.throughField
  coerce _ literals := .ok (Operand.ofTexts literals)
  predicate := basePredicate

/-- The built-in handlers, in the order in which they are asked. -/
def builtins : List Handler :=
  [string, character, numeric, date, boolean, collection .list, collection .set,
   collection .generic, enumeration, base]

end EntityQuery.Handler
