import EntityQuery.Error
import EntityQuery.Value.Json
import EntityQuery.Value.Text

/-!
# Rows of a result

A row is a record as it is stored, or the values of the columns that were asked for. What can go
wrong while rows are made is an error of its own: the outermost cause, and for an expression that
could not be evaluated the mismatch beneath it.
-/

namespace EntityQuery

/-- A row of a result. -/
inductive Row where
  | record (r : Record)
  | tuple (values : List Value)

namespace Row

def display : Row → String
  | .record r => r.display
  | .tuple values => (Value.list values).display

def toJson : Row → JsonDoc
  | .record r => r.toJson
  | .tuple values => .array (jsonItems values)

end Row

/-- The JSON document of a result. -/
def rowsJson (rows : List Row) : JsonDoc := .array (rows.map Row.toJson)

/-- What was evaluated when it failed. -/
inductive Subject where
  | predicate (text : String)
  | sortKey (text : String)
  | column (text : String)
  deriving DecidableEq

def Subject.failure : Subject → String
  | .predicate text => "Failed to evaluate " ++ text
  | .sortKey text => "Failed to evaluate sort key " ++ text
  | .column text => "Failed to project " ++ text

/-- A failure while a query runs. -/
inductive ExecutionError where
  | notOpened
  | unknownEntity (entity : String)
  | noColumns
  | filterOfTuple
  | sortOfTuple
  | projectionOfTuple
  | evaluation (subject : Subject) (mismatch : OperandMismatch)
  deriving DecidableEq

/-- The failure and its causes in words, the outermost first. -/
def ExecutionError.chain : ExecutionError → List String
  | .notOpened => ["Executor not initialized. Call init() first."]
  | .unknownEntity entity => ["Entity type '" ++ entity ++ "' not found"]
  | .noColumns => ["Projection requires at least one expression"]
  | .filterOfTuple => ["Filter expects whole records, got a projected row"]
  | .sortOfTuple => ["Sort expects whole records, got a projected row"]
  | .projectionOfTuple => ["Projection expects whole records, got an already projected row"]
  | .evaluation subject mismatch => [subject.failure, mismatch.message]

end EntityQuery
