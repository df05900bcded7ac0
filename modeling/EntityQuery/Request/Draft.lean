import EntityQuery.Request.Basic
import EntityQuery.Request.Columns
import EntityQuery.Request.Condition
import EntityQuery.Request.Window

/-!
# Drafts of a request

A query is first written down in parts, each as a text or already compiled, and compiled as a whole
by `Draft.build`. Of two orderings or windows the later one counts; an offset or a size that is
given on its own overrides that of the window, wherever it stands.
-/

namespace EntityQuery

/-- What a draft selects. -/
inductive Selection where
  | root
  | columns (text : String)
  | expressions (expressions : List Expression)

/-- What a draft keeps. -/
inductive Condition where
  | everything
  | filter (text : String)
  | predicate (predicate : Expression)

/-- How a draft orders rows. -/
inductive SortPart where
  | text (text : String)
  | keys (keys : List OrderKey)

/-- Which rows a draft takes. -/
inductive WindowPart where
  | limitText (text : String)
  | pageText (text : String)
  | page (number size : UInt64)
  | window (window : Window)

/-- A query that is not compiled yet. -/
structure Draft where
  entity : String
  selection : Selection
  condition : Condition
  sort : Option SortPart
  window : Option WindowPart
  offset : Option UInt64
  size : Option UInt64

namespace Draft

/-- All records of an entity. -/
def of (entity : String) (selection : Selection) : Draft :=
  ⟨entity, selection, .everything, none, none, none, none⟩

/-- Keeps what a filter keeps; a blank filter keeps everything. -/
def filter (d : Draft) (text : String) : Draft :=
  { d with condition := if text.toList.all Text.isBlank then .everything else .filter text }

/-- Keeps the records of which a predicate is true. -/
def predicate (d : Draft) (e : Expression) : Draft := { d with condition := .predicate e }

/-- Orders by the text of an ordering. -/
def sortBy (d : Draft) (text : String) : Draft := { d with sort := some (.text text) }

def orderBy (d : Draft) (keys : List OrderKey) : Draft := { d with sort := some (.keys keys) }

/-- Takes a window. -/
def limit (d : Draft) (offset size : UInt64) : Draft :=
  { d with window := some (.window ⟨offset, size⟩) }

def limitText (d : Draft) (text : String) : Draft := { d with window := some (.limitText text) }

def page (d : Draft) (number size : UInt64) : Draft := { d with window := some (.page number size) }

def pageText (d : Draft) (text : String) : Draft := { d with window := some (.pageText text) }

/-- Leaves out so many rows, whatever the window says. -/
def skip (d : Draft) (n : UInt64) : Draft := { d with offset := some n }

/-- Takes so many rows, whatever the window says. -/
def take (d : Draft) (n : UInt64) : Draft := { d with size := some n }

def compileWindow : WindowPart → Except QueryError Window
  | .limitText text => Window.readLimit text
  | .pageText text => Window.readPage text
  | .page number size => Window.page number size
  | .window w => .ok w

/-- A failure outside of a comparison. -/
def outside {α : Type} (x : Except QueryError α) : Except CompilationError α :=
  x.mapError .ofCause

def compileCondition (config : Config) (entity : String) :
    Condition → Except CompilationError (Option Expression)
  | .everything => .ok none
  | .filter text => (config.compileFilter entity text).map some
  | .predicate e => .ok (some e)

/-- The projection of a selection; no columns at all are the whole record. -/
def compileSelection (config : Config) (entity : String) :
    Selection → Except QueryError Projection
  | .root => .ok .root
  | .columns text =>
    (config.compileSelect entity text).map fun
      | [] => .root
      | paths => .paths paths
  | .expressions expressions => .ok (.expressions expressions)

def compileOrdering (config : Config) (entity : String) :
    Option SortPart → Except QueryError (List OrderKey)
  | none => .ok []
  | some (.text text) => config.compileSort entity text
  | some (.keys keys) => .ok keys

/-- Compiles a draft: the entity, the filter, the columns, the ordering and the window, in this
order. -/
def build (config : Config) (d : Draft) : Except CompilationError Request := do
  if (config.catalog.entity? d.entity).isNone then
    throw (.ofCause (.unknownEntity d.entity))
  let predicate ← compileCondition config d.entity d.condition
  let projection ← outside (compileSelection config d.entity d.selection)
  let ordering ← outside (compileOrdering config d.entity d.sort)
  let window ← outside (d.window.mapM compileWindow)
  return ⟨d.entity, predicate, projection, ordering,
    d.offset <|> window.map (·.offset), d.size <|> window.map (·.size)⟩

end Draft

end EntityQuery
