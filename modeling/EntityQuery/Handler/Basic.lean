import EntityQuery.Error
import EntityQuery.Expression.Basic
import EntityQuery.Operator
import EntityQuery.Schema.Catalog
import EntityQuery.Schema.Selector

/-!
# Handlers

A handler knows one family of field types: how a path goes through such a field, which value a
literal has there, and which predicate an operator stands for. What a program adds to the built-in
handlers has the same form, so a handler is a record of its functions.

A handler may leave literals to the handler of another type, as a collection leaves them to that of
its elements. Beside the field that they are for, it is therefore given a way of having literals
read for any field by the handler of any type (`LiteralContext.read`).
-/

namespace EntityQuery

/-- The right side of a comparison: one value, or a list when there was not exactly one literal. -/
inductive Operand where
  | single (v : Value)
  | list (vs : List Value)

namespace Operand

/-- One value is itself, and any other number of them is a list. -/
def ofValues : List Value → Operand
  | [v] => .single v
  | vs => .list vs

def ofTexts (literals : List String) : Operand := ofValues (literals.map .text)

/-- The value, if it is one. -/
def single? : Operand → Option Value
  | .single v => some v
  | .list _ => none

/-- All values in order. -/
def toList : Operand → List Value
  | .single v => [v]
  | .list vs => vs

def text : Operand → String
  | .single v => v.display
  | .list vs => (Value.list vs).display

end Operand

/-- What the literals of a comparison are read for. -/
structure LiteralSetting where
  /-- The field that the literals are for. -/
  field : ResolvedField
  /-- The pattern that dates are written in, if one is set. -/
  datePattern : Option String
  catalog : Catalog

/-- What a handler knows where it reads literals. -/
structure LiteralContext extends LiteralSetting where
  /-- Has literals read by the handler of a type, in the same setting or in another one. -/
  read : FieldType → LiteralSetting → List String → Except QueryError Operand

/-- The way in which fields of some types are treated. -/
structure Handler where
  name : String
  supports : FieldType → Bool
  /-- The path through a field. -/
  extend : Path → ResolvedField → Path
  /-- The values of literals. -/
  coerce : LiteralContext → List String → Except QueryError Operand
  /-- The predicate of an operator, if there is a rule for it. -/
  predicate : Path → Operand → ComparisonOperator → Option Expression

/-- The path through a field that holds a single value. -/
def Path.throughField (p : Path) (field : ResolvedField) : Path :=
  p.property field.name field.type.classification

def FieldType.elementClass (t : FieldType) : TypeClass :=
  match t.element? with
  | some element => element.classification
  | none => .composite

/-- The path through a collection: to the element that the segment names, or else to all. -/
def Path.throughCollection (p : Path) (field : ResolvedField) : Path :=
  let collection := p.property field.name .composite
  match field.index with
  | some i => collection.index i field.type.elementClass
  | none => collection.any field.type.elementClass

end EntityQuery
