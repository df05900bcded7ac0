import EntityQuery.Execution.Sorting
import EntityQuery.Execution.Stage
import EntityQuery.Store

/-!
# Executors

An executor is a scan of an entity with stages upon it, each with what it remembers from one row to
the next. It has to be opened before it gives rows, and opening one that is open does nothing. The
scan reads its table when it is opened, so records that come later are not seen. A sort takes all
rows from below when it is opened; if that fails, what it took is gone, and opening it again goes on
behind that. All other stages take a row from below only when they are asked for one.

`step` is one attempt to get a row. A filter leaves rows out, and so does a window in front of its
start: then the attempt is `skipped`, and `next` goes on with another one. Every attempt that is
skipped has taken a row from the scan, which is why the attempts end.
-/

namespace EntityQuery

/-- What a stage has beside its parts: the names of its columns, and whether it is open. -/
structure Opening where
  columns : List String
  isOpen : Bool

/-- A stage that was not opened yet. -/
def Opening.closed : Opening := ⟨[], false⟩

/-- A scan of an entity, or a stage upon another executor. -/
inductive Executor where
  /-- The records of an entity; once it is open, those that are not read yet. -/
  | table (entity : String) (columns : List String) (unread : Option (List Record))
  | filter (predicate : Expression) (opening : Opening) (child : Executor)
  /-- The rows of a sort are in order when it is open, and leave it one by one. -/
  | sort (ordering : List OrderKey) (sorted : List Row) (opening : Opening) (child : Executor)
  /-- A window counts the rows that it has taken. -/
  | window (offset : UInt64) (size : Option UInt64) (position : UInt64) (opening : Opening)
    (child : Executor)
  | project (expressions : List Expression) (opening : Opening) (child : Executor)

namespace Executor

/-- The scan of an entity. -/
def scan (entity : String) (columns : List String) : Executor := .table entity columns none

/-- A stage upon an executor. -/
def stage (s : Stage) (child : Executor) : Executor :=
  match s with
  | .filter predicate => .filter predicate .closed child
  | .sort ordering => .sort ordering [] .closed child
  | .window offset size => .window (offset.getD 0) size 0 .closed child
  | .project expressions => .project expressions .closed child

/-- The names of the columns. Before it is opened only a scan has any; a sort that failed to open
has those of the executor below it. -/
def columns : Executor → List String
  | .table _ columns _ => columns
  | .filter _ opening _ => opening.columns
  | .sort _ _ opening _ => opening.columns
  | .window _ _ _ opening _ => opening.columns
  | .project _ opening _ => opening.columns

/-- The greatest number of 64 bits, where a sum stops that would be greater. -/
def saturatingAdd (a b : UInt64) : UInt64 :=
  if a.toNat + b.toNat < UInt64.size then a + b else UInt64.ofNat (UInt64.size - 1)

/-- Whether a window has taken all rows up to its end; without a size it has none. -/
def windowFull (offset : UInt64) (size : Option UInt64) (position : UInt64) : Bool :=
  match size with
  | none => false
  | some n => saturatingAdd offset n ≤ position

/-- One attempt to get a row. -/
def step : Executor → Executor × Attempt
  | .table entity columns none => (.table entity columns none, .failure .notOpened)
  | .table entity columns (some []) => (.table entity columns (some []), .finished)
  | .table entity columns (some (r :: rest)) =>
    (.table entity columns (some rest), .row (.record r))
  | .filter predicate opening child =>
    if opening.isOpen then
      let (child, attempt) := child.step
      (.filter predicate opening child, attempt.treat (Stage.filterRow predicate))
    else (.filter predicate opening child, .failure .notOpened)
  | .sort ordering sorted opening child =>
    if opening.isOpen then
      match sorted with
      | [] => (.sort ordering [] opening child, .finished)
      | row :: rest => (.sort ordering rest opening child, .row row)
    else (.sort ordering sorted opening child, .failure .notOpened)
  | .window offset size position opening child =>
    if opening.isOpen then
      if windowFull offset size position then
        (.window offset size position opening child, .finished)
      else
        match child.step with
        | (child, .row row) =>
          -- a row in front of the offset counts, but is not handed on
          (.window offset size (position + 1) opening child,
            if offset < position + 1 then .row row else .skipped)
        | (child, attempt) => (.window offset size position opening child, attempt)
    else (.window offset size position opening child, .failure .notOpened)
  | .project expressions opening child =>
    if opening.isOpen then
      let (child, attempt) := child.step
      (.project expressions opening child, attempt.treat (Stage.projectRow expressions))
    else (.project expressions opening child, .failure .notOpened)

/-- How many rows are still to be taken from the lowest executor that holds any: the scan, or a
sort that is open. -/
def unread : Executor → Nat
  | .table _ _ unread => (unread.getD []).length
  | .filter _ _ child => child.unread
  | .sort _ sorted _ _ => sorted.length
  | .window _ _ _ _ child => child.unread
  | .project _ _ child => child.unread

/-- An attempt that takes a row leaves fewer of them. -/
theorem step_unread (e : Executor) (h : e.step.2.took = true) : e.step.1.unread < e.unread := by
  induction e with
  | table entity columns unread =>
    match unread with
    | none => cases h
    | some [] => cases h
    | some (r :: rest) => exact Nat.lt_succ_self _
  | filter predicate opening child ih =>
    cases ho : opening.isOpen with
    | false => simp [step, ho, Attempt.took] at h
    | true =>
      simp only [step, ho, if_true] at h ⊢
      exact ih (Attempt.took_of_treat h)
  | sort ordering sorted opening child ih =>
    cases ho : opening.isOpen with
    | false => simp [step, ho, Attempt.took] at h
    | true =>
      cases sorted with
      | nil => simp [step, ho, Attempt.took] at h
      | cons row rest => simp [step, ho, unread]
  | window offset size position opening child ih =>
    cases ho : opening.isOpen with
    | false => simp [step, ho, Attempt.took] at h
    | true =>
      cases hf : windowFull offset size position with
      | true => simp [step, ho, hf, Attempt.took] at h
      | false =>
        simp only [step, ho, hf, if_true, Bool.false_eq_true, if_false] at h ⊢
        cases hs : child.step with
        | mk left attempt =>
          rw [hs] at ih h
          cases attempt with
          | row row => exact ih rfl
          | skipped => exact ih rfl
          | failure error => cases h
          | finished => cases h
  | project expressions opening child ih =>
    cases ho : opening.isOpen with
    | false => simp [step, ho, Attempt.took] at h
    | true =>
      simp only [step, ho, if_true] at h ⊢
      exact ih (Attempt.took_of_treat h)

/-- Asks for the next row: attempts go on as long as rows are left out. There is none behind the
last one. -/
def next (e : Executor) : Executor × Except ExecutionError (Option Row) :=
  match _h : e.step with
  | (rest, .skipped) => rest.next
  | (rest, .row row) => (rest, .ok (some row))
  | (rest, .finished) => (rest, .ok none)
  | (rest, .failure error) => (rest, .error error)
termination_by e.unread
decreasing_by
  have := e.step_unread (by rw [_h]; rfl)
  rwa [_h] at this

/-- A row that is given is one less to take. -/
theorem next_unread {e rest : Executor} {row : Row} (h : e.next = (rest, .ok (some row))) :
    rest.unread < e.unread := by
  fun_induction next e with
  | case1 e left hs ih =>
    have := e.step_unread (by rw [hs]; rfl)
    rw [hs] at this
    exact Nat.lt_trans (ih h) this
  | case2 e left row' hs =>
    have := e.step_unread (by rw [hs]; rfl)
    rw [hs] at this
    obtain ⟨rfl, -⟩ := Prod.mk.inj h
    exact this
  | case3 e left hs => cases h
  | case4 e left error hs => cases h

/-- Takes all rows, each as it is read, up to the first failure. -/
def collect {α : Type} (read : Row → Except ExecutionError α) (e : Executor) :
    Executor × Except ExecutionError (List α) :=
  match _h : e.next with
  | (rest, .ok none) => (rest, .ok [])
  | (rest, .error error) => (rest, .error error)
  | (rest, .ok (some row)) =>
    match read row with
    | .error error => (rest, .error error)
    | .ok x =>
      let (rest, others) := rest.collect read
      (rest, others.map (x :: ·))
termination_by e.unread
decreasing_by exact next_unread _h

/-- Opens an executor, and gives the failure if there is one. -/
def init (store : Store) : Executor → Executor × Except ExecutionError Unit
  | .table entity columns none => (.table entity columns (some (store.scan entity)), .ok ())
  | .table entity columns (some rest) => (.table entity columns (some rest), .ok ())
  | .filter predicate opening child =>
    if opening.isOpen then (.filter predicate opening child, .ok ())
    else
      match child.init store with
      | (child, .ok ()) => (.filter predicate ⟨child.columns, true⟩ child, .ok ())
      | (child, .error error) => (.filter predicate opening child, .error error)
  | .sort ordering sorted opening child =>
    if opening.isOpen then (.sort ordering sorted opening child, .ok ())
    else
      match child.init store with
      | (child, .ok ()) =>
        match child.collect (Stage.keyedRow ordering) with
        | (rest, .ok rows) =>
          (.sort ordering (sortByKeys (ordering.map (·.direction)) rows) ⟨child.columns, true⟩ rest,
            .ok ())
        | (rest, .error error) =>
          -- the rows in front of the failure are gone; opening it again goes on behind them
          (.sort ordering sorted ⟨child.columns, false⟩ rest, .error error)
      | (child, .error error) => (.sort ordering sorted opening child, .error error)
  | .window offset size position opening child =>
    if opening.isOpen then (.window offset size position opening child, .ok ())
    else
      match child.init store with
      | (child, .ok ()) => (.window offset size 0 ⟨child.columns, true⟩ child, .ok ())
      | (child, .error error) => (.window offset size position opening child, .error error)
  | .project expressions opening child =>
    if opening.isOpen then (.project expressions opening child, .ok ())
    else
      match child.init store with
      | (child, .ok ()) =>
        if expressions.isEmpty then (.project expressions opening child, .error .noColumns)
        else (.project expressions ⟨expressions.map Stage.columnName, true⟩ child, .ok ())
      | (child, .error error) => (.project expressions opening child, .error error)

end Executor

end EntityQuery
