import EntityQuery.Error
import EntityQuery.Schema.Catalog
import EntityQuery.Text.Alphanumeric
import EntityQuery.Text.Blank
import EntityQuery.Text.Split

/-!
# Selectors

A selector such as `engine.screws[0].name` names a field by the way to it from a root entity. It is
cut at its points, and each segment, a name with an optional index, is looked up on the entity that
the segments before it lead to. The segments are taken from the left, so the first that fails is
the one that is reported.
-/

namespace EntityQuery

/-- A segment of a selector: the name of a field and the index of an element of it. -/
structure Segment where
  name : String
  index : Option UInt64
  deriving DecidableEq

namespace Segment

/-- Whether a character may be part of the name of a field. -/
def isNameChar (c : Char) : Bool := Text.isAlphanumeric c || c = '_'

def checkName (segment name : List Char) : Except SelectorFault Unit :=
  if name = [] then .error .emptySegment
  else if name.all isNameChar then .ok ()
  else .error (.badSegment (String.ofList segment))

/-- Reads what follows the opening bracket of a segment. -/
def readIndex (segment rest : List Char) : Except SelectorFault UInt64 :=
  match rest.reverse with
  | ']' :: reversed =>
    match Numeral.readUInt64 reversed.reverse with
    | .ok n => .ok n
    | .error _ =>
      .error (.badIndex (String.ofList reversed.reverse) (String.ofList segment))
  | _ => .error (.unclosedIndex (String.ofList segment))

/-- Reads a segment. The index is looked at before the name. -/
def read (segment : List Char) : Except SelectorFault Segment := do
  let name := segment.takeWhile (· ≠ '[')
  match segment.dropWhile (· ≠ '[') with
  | [] =>
    checkName segment name
    return ⟨String.ofList name, none⟩
  | _ :: rest =>
    let index ← readIndex segment rest
    checkName segment name
    return ⟨String.ofList name, some index⟩

def text (s : Segment) : String :=
  match s.index with
  | none => s.name
  | some i => s.name ++ "[" ++ Numeral.decimal i.toNat ++ "]"

end Segment

/-- A field that a segment of a selector leads to. -/
structure ResolvedField where
  name : String
  /-- The element that is meant, when the field is a collection and the segment names one. -/
  index : Option UInt64
  type : FieldType
  /-- The type that declares the field, which may be a supertype of the one it was looked for on. -/
  owner : String
  /-- The position of the field that this one is reached through. -/
  parent : Option Nat
  deriving DecidableEq

/-- The elements of a collection as a field: it has the name of the collection and stands where the
collection does, and none of the elements is meant in particular. -/
def ResolvedField.element? (field : ResolvedField) : Option ResolvedField :=
  field.type.element?.map fun element => { field with index := none, type := element }

/-- The fields along a selector, from the root; there is at least one. -/
structure ResolvedSelector where
  selector : String
  root : String
  fields : List ResolvedField
  leaf : ResolvedField
  deriving DecidableEq

namespace Catalog

/-- Looks up a segment on an entity. -/
def resolveSegment (c : Catalog) (selector entity : String) (parent : Option Nat)
    (segment : Segment) : Except QueryError ResolvedField :=
  match c.findField entity segment.name with
  | none => .error (.unresolvedField selector entity segment.name)
  | some (owner, field) =>
    if segment.index.isSome && !field.type.isCollection then
      .error (.invalidSelector selector (.notIndexable segment.name))
    else .ok ⟨segment.name, segment.index, field.type, owner.name, parent⟩

def readSegment (selector : String) (segment : List Char) : Except QueryError Segment :=
  match Segment.read segment with
  | .ok s => .ok s
  | .error fault => .error (.invalidSelector selector fault)

/-- Looks up the segments behind the field `previous`, which is at `position`. -/
def resolveBehind (c : Catalog) (selector : String) (position : Nat) (previous : ResolvedField) :
    List (List Char) → Except QueryError (List ResolvedField × ResolvedField)
  | [] => .ok ([previous], previous)
  | segment :: rest => do
    let s ← readSegment selector segment
    -- a segment is read before it is asked whether anything can be behind the field
    match previous.type.navigable? with
    | none => .error (.unresolvedField selector previous.type.text s.name)
    | some entity =>
      let field ← c.resolveSegment selector entity (some position) s
      let (fields, leaf) ← c.resolveBehind selector (position + 1) field rest
      return (previous :: fields, leaf)

/-- The fields along a selector from a root entity. -/
def resolve (c : Catalog) (root selector : String) : Except QueryError ResolvedSelector :=
  if (c.entity? root).isNone then .error (.unknownEntity root)
  else if selector.toList.all Text.isBlank then .error (.invalidSelector selector .blank)
  else
    match Text.splitChars '.' selector.toList with
    | [] => .error (.invalidSelector selector .blank)
    | first :: rest => do
      let s ← readSegment selector first
      let field ← c.resolveSegment selector root none s
      let (fields, leaf) ← c.resolveBehind selector 0 field rest
      return ⟨selector, root, fields, leaf⟩

end Catalog

end EntityQuery
