import EntityQuery.Execution.Row
import EntityQuery.Expression.Evaluation
import EntityQuery.Request.Ordering

/-!
# Stages

A step on the way from the records of an entity to the rows of a result: a filter, a sort, a window
or a projection, and what it makes of one row that comes from below. A row is passed on, turned
into another one, left out, or cannot be treated at all.
-/

namespace EntityQuery

/-- A step on the way from the records of an entity to the rows of a result. -/
inductive Stage where
  | filter (predicate : Expression)
  | sort (ordering : List OrderKey)
  | window (offset size : Option UInt64)
  | project (expressions : List Expression)

/-- What comes of one attempt to get a row. -/
inductive Attempt where
  | row (row : Row)
  | failure (error : ExecutionError)
  /-- The rows are at their end. -/
  | finished
  /-- A row was taken from below and left out. -/
  | skipped

namespace Attempt

/-- What a stage makes of an attempt below it, of which only a row concerns it. -/
def treat (treatRow : Row → Attempt) : Attempt → Attempt
  | .row taken => treatRow taken
  | attempt => attempt

/-- Whether a row was taken from below without a failure. -/
def took : Attempt → Bool
  | .row _ => true
  | .skipped => true
  | _ => false

/-- A stage takes nothing that was not taken below it. -/
theorem took_of_treat {treatRow : Row → Attempt} {attempt : Attempt}
    (h : (attempt.treat treatRow).took = true) : attempt.took = true := by
  cases attempt with
  | row taken => rfl
  | skipped => rfl
  | failure error => exact h
  | finished => exact h

end Attempt

namespace Stage

def filterRow (predicate : Expression) : Row → Attempt
  | .tuple _ => .failure .filterOfTuple
  | .record r =>
    match predicate.keeps r with
    | .ok true => .row (.record r)
    | .ok false => .skipped
    | .error m => .failure (.evaluation (.predicate predicate.text) m)

def keyValue (r : Record) (key : OrderKey) : Except ExecutionError Value :=
  match (Expression.path key.path).project r with
  | .ok v => .ok v
  | .error m => .error (.evaluation (.sortKey key.path.text) m)

/-- A row together with the values of its sort keys. -/
def keyedRow (ordering : List OrderKey) : Row → Except ExecutionError (List Value × Row)
  | .tuple _ => .error .sortOfTuple
  | .record r => (ordering.mapM (keyValue r)).map fun values => (values, .record r)

def columnValue (r : Record) (e : Expression) : Except ExecutionError Value :=
  match e.project r with
  | .ok v => .ok v
  | .error m => .error (.evaluation (.column e.text) m)

def projectRow (expressions : List Expression) : Row → Attempt
  | .tuple _ => .failure .projectionOfTuple
  | .record r =>
    match expressions.mapM (columnValue r) with
    | .ok values => .row (.tuple values)
    | .error e => .failure e

/-- The name of a column: of a path its last field, of any other expression its text. -/
def columnName : Expression → String
  | .path p => p.leafName
  | e => e.text

end Stage

end EntityQuery
