import EntityQuery.Execution.Executor
import EntityQuery.Request.Basic
import EntityQuery.Schema.Catalog

/-!
# Running requests

A request is planned as a scan with the stages that it needs: a filter, a sort, a window and a
projection, from below. Its result is all rows of that executor, or the first failure.
-/

namespace EntityQuery

/-- The expressions of a projection; none for the whole record. -/
def Projection.expressions? : Projection → Option (List Expression)
  | .root => none
  | .paths ps => some (ps.map .path)
  | .expressions es => some es

namespace Request

/-- The stages of a request, from the scan upward. -/
def stages (r : Request) : List Stage :=
  (r.predicate.map Stage.filter).toList ++
    (if r.ordering = [] then [] else [.sort r.ordering]) ++
    (if r.offset.isSome || r.size.isSome then [.window r.offset r.size] else []) ++
    (r.projection.expressions?.map Stage.project).toList

end Request

/-- The catalog and the records that requests run on. -/
structure Backend where
  catalog : Catalog
  store : Store

namespace Backend

/-- The executor of a request. -/
def plan (b : Backend) (r : Request) : Except ExecutionError Executor :=
  match b.catalog.entity? r.entity with
  | none => .error (.unknownEntity r.entity)
  | some _ =>
    let scan := Executor.scan r.entity ((b.catalog.allFields r.entity).map (·.name))
    .ok (r.stages.foldl (fun child stage => .stage stage child) scan)

/-- The executor of a request, open. -/
def run (b : Backend) (r : Request) : Except ExecutionError Executor := do
  let e ← b.plan r
  match e.init b.store with
  | (opened, .ok ()) => return opened
  | (_, .error error) => throw error

/-- The rows of a request. -/
def fetch (b : Backend) (r : Request) : Except ExecutionError (List Row) := do
  let e ← b.run r
  (e.collect .ok).2

/-- The first row of a request, if there is one. -/
def fetchOne (b : Backend) (r : Request) : Except ExecutionError (Option Row) :=
  (b.fetch { r with size := some 1 }).map (·.head?)

/-- The names of the columns of a request. -/
def columns (b : Backend) (r : Request) : Except ExecutionError (List String) :=
  (b.run r).map (·.columns)

end Backend

end EntityQuery
