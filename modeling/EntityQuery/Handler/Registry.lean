import EntityQuery.Handler.Builtin

/-!
# The registry of handlers

Handlers in the order in which they are asked; the first that supports a type has it. Added
handlers come in front of the built-in ones, the last of which supports every type.

Handlers may leave literals to one another, and nothing keeps added ones from doing so without end.
Literals are therefore read to a depth, which counts how often they are handed on. It is given on
top of what the elements of collections need, so that the built-in handlers never reach it.
-/

namespace EntityQuery

/-- Handlers in the order in which they are asked. -/
structure Registry where
  handlers : List Handler

namespace Registry

/-- The given handlers in front of the built-in ones. -/
def withAdded (added : List Handler) : Registry := ⟨added ++ Handler.builtins⟩

def names (r : Registry) : List String := r.handlers.map (·.name)

def lookup (r : Registry) (t : FieldType) : Except QueryError Handler :=
  match r.handlers.find? (·.supports t) with
  | some h => .ok h
  | none => .error (.unsupportedType t)

/-- Has literals read by the handler of a type. That handler may have them read by others in turn,
down to the depth at which they count as literals that nobody reads. -/
def read (r : Registry) :
    Nat → FieldType → LiteralSetting → List String → Except QueryError Operand
  | 0, _, setting, literals =>
    .error (.badLiteral (", ".intercalate literals) setting.field.name .endless)
  | depth + 1, t, setting, literals => do
    let h ← r.lookup t
    h.coerce { setting with read := r.read depth } literals

/-- What a handler is told in a setting, where literals may be handed on to the given depth. -/
def contextAt (r : Registry) (depth : Nat) (setting : LiteralSetting) : LiteralContext :=
  { setting with read := r.read depth }

/-- What a handler is told about a field. The depth is on top of what the elements need. -/
def contextOf (r : Registry) (catalog : Catalog) (datePattern : Option String) (depth : Nat)
    (field : ResolvedField) : LiteralContext :=
  r.contextAt (depth + field.type.nesting) { field, datePattern, catalog }

/-- The values of literals for a field. -/
def coerce (r : Registry) (catalog : Catalog) (datePattern : Option String) (depth : Nat)
    (field : ResolvedField) (literals : List String) : Except QueryError Operand := do
  let h ← r.lookup field.type
  h.coerce (r.contextOf catalog datePattern depth field) literals

/-- The depth to which literals are handed on, where no other one is asked for. -/
def defaultDepth : Nat := 1000

/-- What a handler is told about a field that no selector leads to. -/
def context (r : Registry) (catalog : Catalog) (datePattern : Option String) (name : String)
    (t : FieldType) : LiteralContext :=
  r.contextOf catalog datePattern defaultDepth
    { name, index := none, type := t, owner := "", parent := none }

/-- The path along the fields of a selector, each through its handler. -/
def extendAll (r : Registry) : Path → List ResolvedField → Except QueryError Path
  | p, [] => .ok p
  | p, field :: fields => do
    let h ← r.lookup field.type
    r.extendAll (h.extend p field) fields

def pathOf (r : Registry) (s : ResolvedSelector) : Except QueryError Path :=
  r.extendAll (Path.root s.root) s.fields

end Registry

end EntityQuery
