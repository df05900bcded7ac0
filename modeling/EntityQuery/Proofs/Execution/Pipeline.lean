import EntityQuery.Execution.Backend
import EntityQuery.Proofs.Execution.Answers

/-!
# Stages as functions on answers

Opening a stage upon an executor that opens turns the answers of the one into the answers of the
other (`Stage.apply`). A sort reads all answers below it then and there, so it fails to open at the
first failure among them; a projection fails to open when it has no columns. From this the whole
pipeline of a request is a fold over its stages (`fetch_eq`, `columns_eq`).
-/

namespace EntityQuery

def answersOf (xs : List Record) : List Answer := xs.map fun x => .ok (.record x)

namespace Stage

/-- What a stage makes of the answers below it when it is opened. -/
def apply : Stage → List Answer → Except ExecutionError (List Answer)
  | .filter predicate, as => .ok (as.flatMap (Answer.treat (filterRow predicate)))
  | .sort ordering, as =>
    (as.mapM fun answer : Answer => answer.bind (keyedRow ordering)).map fun rows =>
      (sortByKeys (ordering.map (·.direction)) rows).map .ok
  | .window offset size, as => .ok (Executor.windowed (offset.getD 0) size 0 as)
  | .project expressions, as =>
    if expressions.isEmpty then .error .noColumns
    else .ok (as.flatMap (Answer.treat (projectRow expressions)))

/-- What stages upon each other make of the answers below them. -/
def applyAll (ss : List Stage) (as : List Answer) : Except ExecutionError (List Answer) :=
  ss.foldlM (fun as s => s.apply as) as

/-- Stages on top of stages do to a list of answers what they do one after the other. -/
theorem applyAll_append (ss ts : List Stage) (as : List Answer) :
    applyAll (ss ++ ts) as = (applyAll ss as).bind (applyAll ts) :=
  List.foldlM_append

def columnsAbove : Stage → List String → List String
  | .project expressions, _ => expressions.map columnName
  | _, columns => columns

end Stage

namespace Executor

variable {store : Store} {e child : Executor} {as : List Answer} {columns : List String}

/-- An executor opens, with answers to give and columns. -/
def Opens (store : Store) (e : Executor) (as : List Answer) (columns : List String) : Prop :=
  ∃ opened, e.init store = (opened, .ok ()) ∧ opened.Ready ∧ opened.answers = as ∧
    opened.columns = columns

/-- An executor does not open. -/
def Refuses (store : Store) (e : Executor) (error : ExecutionError) : Prop :=
  ∃ left, e.init store = (left, .error error)

/-- How an executor opens: with the answers that come of it, or with its failure. -/
def Begins (store : Store) (e : Executor) (columns : List String) :
    Except ExecutionError (List Answer) → Prop
  | .ok as => e.Opens store as columns
  | .error error => e.Refuses store error

/-- A scan opens on any store, also for an entity without records, and gives the records of its
entity in order. -/
theorem opens_scan (store : Store) (entity : String) (columns : List String) :
    Opens store (scan entity columns) (answersOf (store.scan entity)) columns :=
  ⟨_, rfl, rfl, rfl, rfl⟩

/-- A stage upon an executor that opens makes of its answers what the stage makes of them. -/
theorem begins_stage (s : Stage) (h : child.Opens store as columns) :
    (stage s child).Begins store (s.columnsAbove columns) (s.apply as) := by
  obtain ⟨opened, hinit, ready, rfl, rfl⟩ := h
  cases s with
  | filter predicate =>
    refine ⟨.filter predicate ⟨opened.columns, true⟩ opened, ?_, ⟨rfl, ready⟩, rfl, rfl⟩
    simp only [stage, init, Opening.closed, Bool.false_eq_true, if_false, hinit]
  -- a sort reads all there is below it when it is opened, and is refused with its first failure
  | sort ordering =>
    have collected := collect_answers (Stage.keyedRow ordering) ready
    cases hc : opened.collect (Stage.keyedRow ordering) with
    | mk left result =>
      rw [hc] at collected
      rw [Stage.apply, ← collected]
      cases result with
      | error error =>
        refine ⟨.sort ordering [] ⟨opened.columns, false⟩ left, ?_⟩
        simp only [stage, init, Opening.closed, Bool.false_eq_true, if_false, hinit, hc]
      | ok rows =>
        refine ⟨.sort ordering (sortByKeys (ordering.map (·.direction)) rows)
          ⟨opened.columns, true⟩ left, ?_, rfl, rfl, rfl⟩
        simp only [stage, init, Opening.closed, Bool.false_eq_true, if_false, hinit, hc]
  | window offset size =>
    refine ⟨.window (offset.getD 0) size 0 ⟨opened.columns, true⟩ opened, ?_, ⟨rfl, ready⟩, rfl,
      rfl⟩
    simp only [stage, init, Opening.closed, Bool.false_eq_true, if_false, hinit]
  | project expressions =>
    rw [Stage.apply]
    cases expressions with
    | nil =>
      refine ⟨.project [] .closed opened, ?_⟩
      simp only [stage, init, Opening.closed, Bool.false_eq_true, if_false, hinit,
        List.isEmpty_nil, if_true]
    | cons e es =>
      refine ⟨.project (e :: es) ⟨(e :: es).map Stage.columnName, true⟩ opened, ?_, ⟨rfl, ready⟩,
        rfl, rfl⟩
      simp only [stage, init, Opening.closed, Bool.false_eq_true, if_false, hinit,
        List.isEmpty_cons]

/-- A stage above one that does not open does not open either, and fails with the same error. -/
theorem refuses_stage (s : Stage) {error : ExecutionError} (h : child.Refuses store error) :
    (stage s child).Refuses store error := by
  obtain ⟨left, hinit⟩ := h
  cases s with
  | filter predicate =>
    refine ⟨.filter predicate .closed left, ?_⟩
    simp only [stage, init, Opening.closed, Bool.false_eq_true, if_false, hinit]
  | sort ordering =>
    refine ⟨.sort ordering [] .closed left, ?_⟩
    simp only [stage, init, Opening.closed, Bool.false_eq_true, if_false, hinit]
  | window offset size =>
    refine ⟨.window (offset.getD 0) size 0 .closed left, ?_⟩
    simp only [stage, init, Opening.closed, Bool.false_eq_true, if_false, hinit]
  | project expressions =>
    refine ⟨.project expressions .closed left, ?_⟩
    simp only [stage, init, Opening.closed, Bool.false_eq_true, if_false, hinit]

/-- Neither does a whole stack of stages. -/
theorem refuses_stages (ss : List Stage) {error : ExecutionError} (h : e.Refuses store error) :
    (ss.foldl (fun child s => stage s child) e).Refuses store error := by
  induction ss generalizing e with
  | nil => exact h
  | cons s ss ih => exact ih (refuses_stage s h)

/-- Stages upon an executor that opens are applied to its answers in turn, from the bottom up. A
stage that refuses, as a sort does at a failure, keeps the ones above it closed. -/
theorem begins_stages (ss : List Stage) (h : e.Opens store as columns) :
    (ss.foldl (fun child s => stage s child) e).Begins store
      (ss.foldl (fun columns s => s.columnsAbove columns) columns)
      (Stage.applyAll ss as) := by
  induction ss generalizing e as columns with
  | nil => exact h
  | cons s ss ih =>
    rw [Stage.applyAll, List.foldlM_cons]
    have first := begins_stage s h
    cases happly : s.apply as with
    | error error =>
      rw [happly] at first
      exact refuses_stages ss first
    | ok bs =>
      rw [happly] at first
      exact ih first

end Executor

namespace Backend

variable {b : Backend} {r : Request}

/-- The answers of a request, when its executor opens. -/
def answers (b : Backend) (r : Request) : Except ExecutionError (List Answer) :=
  Stage.applyAll r.stages (answersOf (b.store.scan r.entity))

/-- The columns of a request: those of its projection, or else all fields of the entity. -/
def columnNames (b : Backend) (r : Request) : List String :=
  r.stages.foldl (fun columns s => s.columnsAbove columns)
    ((b.catalog.allFields r.entity).map (·.name))

/-- The executor of a request opens with the answers of the request. -/
theorem begins_plan (known : (b.catalog.entity? r.entity).isSome) :
    ∃ e, b.plan r = .ok e ∧ e.Begins b.store (b.columnNames r) (b.answers r) := by
  obtain ⟨t, ht⟩ := Option.isSome_iff_exists.mp known
  refine ⟨_, ?_, Executor.begins_stages r.stages (Executor.opens_scan b.store r.entity _)⟩
  rw [plan, ht]

/-- How a request runs: an executor is opened with the answers that come of it, or the request
fails. -/
def Runs (b : Backend) (r : Request) : Except ExecutionError (List Answer) → Prop
  | .ok as => ∃ e, b.run r = .ok e ∧ e.Ready ∧ e.answers = as ∧ e.columns = b.columnNames r
  | .error error => b.run r = .error error

/-- Running a request opens its executor, or fails as that does. -/
theorem run_answers (known : (b.catalog.entity? r.entity).isSome) : b.Runs r (b.answers r) := by
  obtain ⟨e, hplan, begins⟩ := begins_plan known
  cases hanswers : b.answers r with
  | error error =>
    rw [hanswers] at begins
    obtain ⟨left, hinit⟩ := begins
    simp only [Runs, run, hplan, bind, Except.bind, hinit]
    rfl
  | ok as =>
    rw [hanswers] at begins
    obtain ⟨opened, hinit, ready, answers, columns⟩ := begins
    refine ⟨opened, ?_, ready, answers, columns⟩
    simp only [run, hplan, bind, Except.bind, hinit]
    rfl

/-- The rows of a request are its answers, up to the first failure. -/
theorem fetch_eq (known : (b.catalog.entity? r.entity).isSome) :
    b.fetch r = (b.answers r).bind fun as => as.mapM id := by
  have runs : b.Runs r (b.answers r) := run_answers known
  cases hanswers : b.answers r with
  | error error =>
    rw [hanswers] at runs
    rw [fetch, show b.run r = .error error from runs]
    rfl
  | ok as =>
    rw [hanswers] at runs
    obtain ⟨e, he, ready, rfl, -⟩ := runs
    rw [fetch, he]
    refine (Executor.collect_answers .ok ready).trans (congrArg (e.answers.mapM ·) ?_)
    funext answer
    cases answer <;> rfl

/-- The columns of a request are known as soon as its executor opens. -/
theorem columns_eq (known : (b.catalog.entity? r.entity).isSome) :
    b.columns r = (b.answers r).map fun _ => b.columnNames r := by
  have runs : b.Runs r (b.answers r) := run_answers known
  cases hanswers : b.answers r with
  | error error =>
    rw [hanswers] at runs
    rw [columns, show b.run r = .error error from runs]
    rfl
  | ok as =>
    rw [hanswers] at runs
    obtain ⟨e, he, -, -, names⟩ := runs
    rw [columns, he]
    exact congrArg Except.ok names

end Backend

end EntityQuery
