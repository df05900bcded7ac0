import EntityQuery.Calendar.DateTime
import EntityQuery.Floating.Rounding
import EntityQuery.Keyed
import EntityQuery.Numeral.Width

/-!
# Values and records

What a field of a record can hold and what a comparison can be made with. A record has the name of
its type and its fields in order of name; a field that was never set reads as null.
-/

namespace EntityQuery

mutual

/-- A value of a field, or a literal. -/
inductive Value where
  | null
  | boolean (b : Bool)
  | character (c : Char)
  | integer (n : SizedInt)
  | floating (p : Precision) (x : Floating)
  | text (s : String)
  | dateTime (t : DateTime)
  /-- A constant of an enumeration, by name. -/
  | constant (name : String)
  | list (items : List Value)
  | record (r : Record)

/-- An instance of an entity type. -/
structure Record where
  type : String
  fields : List (String × Value)

end

instance : Inhabited Value := ⟨.null⟩

namespace Record

/-- A record without fields. -/
def empty (type : String) : Record := ⟨type, []⟩

/-- The value of a field. -/
def get (r : Record) (field : String) : Value := (Keyed.find? field r.fields).getD .null

/-- The record with a field set. -/
def set (r : Record) (field : String) (value : Value) : Record :=
  ⟨r.type, Keyed.insert field value r.fields⟩

/-- A record with the given fields, set in turn. -/
def ofFields (type : String) (fields : List (String × Value)) : Record :=
  fields.foldl (fun r (field, value) => r.set field value) (empty type)

/-- Setting a field is seen at that field and at no other. -/
theorem get_set (r : Record) (field other : String) (value : Value) :
    (r.set field value).get other = if field = other then value else r.get other := by
  simp only [get, set, Keyed.find?_insert]
  split <;> rfl

end Record

namespace Value

def isNull : Value → Bool
  | .null => true
  | _ => false

/-- The short name of the kind of value. -/
def kind : Value → String
  | .null => "null"
  | .boolean _ => "boolean"
  | .character _ => "char"
  | .integer n => n.width.name
  | .floating p _ => p.name
  | .text _ => "string"
  | .dateTime _ => "datetime"
  | .constant _ => "enum"
  | .list _ => "list"
  | .record _ => "record"

/-- The integer that a value of any integral width holds. -/
def toInt? : Value → Option Int
  | .integer n => some n.toInt
  | _ => none

/-- The number that a numeric value holds, at double precision. -/
def toDouble? : Value → Option Floating
  | .integer n => some (Floating.ofInt .double n.toInt)
  | .floating _ x => some (x.toPrecision .double)
  | _ => none

/-- The text of a string or of an enumeration constant. -/
def toText? : Value → Option String
  | .text s => some s
  | .constant name => some name
  | _ => none

end Value

end EntityQuery
