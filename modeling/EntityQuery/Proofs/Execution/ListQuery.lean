import EntityQuery.Proofs.Execution.KeyOrder
import EntityQuery.Proofs.Execution.Pipeline
import EntityQuery.Proofs.Execution.Window

/-!
# Requests as queries on lists

What a request asks for can be said of the table of its entity as a list: keep the records that the
predicate is true of, sort them stably by the ordering, drop as many as the offset says, take as
many as the size says, and show each (`Request.listQuery`). A request that succeeds has that result
(`fetch_refines_listQuery`). What it is to be sorted stably by an ordering is said of the values of
the keys and not of the code that compares them (`OrderKey.Arranges`).

When it fails depends on which records are looked at. A sort looks at the whole table before the
first row leaves it. Without one the table is gone through in order, and no further than the end of
the window (`Request.MeetsFailure`).
-/

namespace EntityQuery

/-- The value of a key in a record: null if its path reaches none, and a list if it reaches
several. -/
def OrderKey.valueIn (x : Record) (key : OrderKey) : Value :=
  match key.path.candidates x with
  | [] => .null
  | [v] => v
  | vs => .list vs

namespace Request

/-- The predicate of a request fails on a record. -/
def FailsOn (r : Request) (x : Record) : Prop :=
  ∃ p m, r.predicate = some p ∧ p.keeps x = .error m

/-- Whether the predicate of a request is true of a record; without a predicate all records are
selected. -/
def selects (r : Request) (x : Record) : Bool :=
  match r.predicate with
  | none => true
  | some p =>
    match p.keeps x with
    | .ok kept => kept
    | .error _ => false

/-- The values of the sort keys of a record. -/
def keys (r : Request) (x : Record) : List Value := r.ordering.map (·.valueIn x)

/-- Whether a record may stand in front of another one. -/
def precedes (r : Request) (x y : Record) : Bool :=
  (compareKeys (r.ordering.map (·.direction)) (r.keys x) (r.keys y)).isLE

/-- The part of a list that the offset and the size of a request leave. -/
def page {α : Type} (r : Request) (xs : List α) : List α :=
  match r.size with
  | none => xs.drop (r.offset.getD 0).toNat
  | some n => (xs.drop (r.offset.getD 0).toNat).take n.toNat

/-- The records that a request selects, in order. -/
def arranged (r : Request) (table : List Record) : List Record :=
  (table.filter r.selects).mergeSort r.precedes

/-- The records that a request shows, in order. -/
def listed (r : Request) (table : List Record) : List Record := r.page (r.arranged table)

/-- What a request shows of a record. -/
def rowOf (r : Request) (x : Record) : Except ExecutionError Row :=
  match r.projection.expressions? with
  | none => .ok (.record x)
  | some es => (es.mapM (Stage.columnValue x)).map .tuple

/-- The result of a request on the table of its entity. -/
def listQuery (r : Request) (table : List Record) : Except ExecutionError (List Row) :=
  (r.listed table).mapM r.rowOf

/-- The sort keys of the selected records are, column by column, null or of one kind. -/
def SortsOn (r : Request) (table : List Record) : Prop :=
  ∀ key ∈ r.ordering, ∃ kind, ∀ x ∈ table, r.selects x → (key.valueIn x).SortsAs kind

/-- Going through a table from a position on, a record that the predicate fails on is met in front
of the end of the window. Only selected records are counted. -/
def MeetsFailureFrom (r : Request) (k : Nat) (table : List Record) : Prop :=
  ∃ before x behind, table = before ++ x :: behind ∧ r.FailsOn x ∧
    Within (r.offset.getD 0) r.size (k + (before.filter r.selects).length)

/-- Going through a table in order, a record that the predicate fails on is met before as many
records are selected as the offset and the size are together; always, if there is no size. -/
def MeetsFailure (r : Request) (table : List Record) : Prop :=
  ∃ before x behind, table = before ++ x :: behind ∧ r.FailsOn x ∧
    ∀ n ∈ r.size, (before.filter r.selects).length < (r.offset.getD 0).toNat + n.toNat

/-! ## Selecting -/

/-- What a request makes of a record before it is sorted. -/
def answerOf (r : Request) (x : Record) : List Answer :=
  match r.predicate with
  | none => [.ok (.record x)]
  | some p => (Stage.filterRow p (.record x)).answer

/-- A record is failed on, selected or left out. These are the cases of all proofs by induction on a
table. -/
theorem answerOf_cases (r : Request) (x : Record) :
    (r.FailsOn x ∧ r.selects x = false ∧ ∃ error, r.answerOf x = [.error error]) ∨
      (¬r.FailsOn x ∧ r.selects x = true ∧ r.answerOf x = [.ok (.record x)]) ∨
      (¬r.FailsOn x ∧ r.selects x = false ∧ r.answerOf x = []) := by
  unfold FailsOn selects answerOf
  cases r.predicate with
  | none =>
    refine .inr (.inl ⟨?_, rfl, rfl⟩)
    rintro ⟨p, m, ⟨⟩, -⟩
  | some p =>
    have failed : (∃ q m, some p = some q ∧ q.keeps x = .error m) ↔ ∃ m, p.keeps x = .error m := by
      constructor
      · rintro ⟨q, m, ⟨⟩, h⟩
        exact ⟨m, h⟩
      · rintro ⟨m, h⟩
        exact ⟨p, m, rfl, h⟩
    rw [failed]
    dsimp only [Stage.filterRow]
    cases hk : p.keeps x with
    | error m => exact .inl ⟨⟨m, rfl⟩, rfl, _, rfl⟩
    | ok kept =>
      have fine : ¬∃ m, (Except.ok kept : Except OperandMismatch Bool) = .error m := by
        rintro ⟨m, ⟨⟩⟩
      cases kept with
      | true => exact .inr (.inl ⟨fine, rfl, rfl⟩)
      | false => exact .inr (.inr ⟨fine, rfl, rfl⟩)

/-! ## Going through a table -/

section Meeting

variable {r : Request} {k : Nat} {x : Record} {table : List Record}

theorem not_meetsFailureFrom_nil : ¬r.MeetsFailureFrom k [] := by
  rintro ⟨before, x, behind, h, -⟩
  cases before <;> cases h

/-- A failure that is met is met in front of the end of the window, so the window is not over at the
start. -/
theorem within_of_meetsFailureFrom (h : r.MeetsFailureFrom k table) :
    Within (r.offset.getD 0) r.size k := by
  obtain ⟨before, x, behind, -, -, within⟩ := h
  exact within.mono (Nat.le_add_right _ _)

/-- A failure on the very first record is met if the window is not over. -/
theorem meetsFailureFrom_cons_of_failsOn (hx : r.FailsOn x)
    (within : Within (r.offset.getD 0) r.size k) : r.MeetsFailureFrom k (x :: table) :=
  ⟨[], x, table, rfl, hx, within⟩

/-- A record that is not failed on is passed, and counted if it is selected. -/
theorem meetsFailureFrom_cons_iff (hx : ¬r.FailsOn x) :
    r.MeetsFailureFrom k (x :: table) ↔
      r.MeetsFailureFrom (if r.selects x then k + 1 else k) table := by
  have count : ∀ before : List Record, k + ((x :: before).filter r.selects).length =
      (if r.selects x then k + 1 else k) + (before.filter r.selects).length := by
    intro before
    rw [List.filter_cons]
    split
    · rw [List.length_cons]
      omega
    · rfl
  constructor
  · rintro ⟨before, y, behind, h, hy, within⟩
    cases before with
    | nil =>
      cases h
      exact absurd hy hx
    | cons z before =>
      cases h
      exact ⟨before, y, behind, rfl, hy, count before ▸ within⟩
  · rintro ⟨before, y, behind, rfl, hy, within⟩
    exact ⟨x :: before, y, behind, rfl, hy, (count before).symm ▸ within⟩

/-- From the start of the table on, the end of the window is the offset and the size together. -/
theorem meetsFailureFrom_zero_iff : r.MeetsFailureFrom 0 table ↔ r.MeetsFailure table := by
  unfold MeetsFailureFrom MeetsFailure Within
  simp only [Nat.zero_add]

end Meeting

/-! ## What comes of a window -/

/-- The records of a table that the window of a request shows, the table being gone through from a
position on. -/
def shown (r : Request) (k : Nat) (table : List Record) : List Record :=
  slice (r.offset.getD 0) r.size k (table.filter r.selects)

/-- What comes of the window of a request, when a table is gone through from a position on. It
fails when the predicate does in front of the end, or when a record that it shows cannot be shown;
else its rows are those of the records that it shows. -/
structure Outcome (r : Request) (k : Nat) (table : List Record)
    (result : Except ExecutionError (List Row)) : Prop where
  fails : (∃ error, result = .error error) ↔
    r.MeetsFailureFrom k table ∨ ∃ x ∈ r.shown k table, ∃ error, r.rowOf x = .error error
  rows : ∀ rows, result = .ok rows → (r.shown k table).mapM r.rowOf = .ok rows

namespace Outcome

variable {r : Request} {k : Nat} {x : Record} {table : List Record}
  {result : Except ExecutionError (List Row)}

/-- Where no failure is met and nothing is shown, nothing comes out. -/
theorem of_nothing (meets : ¬r.MeetsFailureFrom k table) (none : r.shown k table = []) :
    Outcome r k table (.ok []) := by
  refine ⟨iff_of_false (by rintro ⟨error, ⟨⟩⟩) ?_, ?_⟩
  · rintro (met | ⟨x, hx, -⟩)
    · exact meets met
    · rw [none] at hx
      cases hx
  · rintro rows ⟨⟩
    rw [none]
    rfl

/-- Two tables that meet failures and show records alike have the same outcome. -/
theorem congr {j : Nat} {other : List Record} (h : Outcome r j other result)
    (meets : r.MeetsFailureFrom k table ↔ r.MeetsFailureFrom j other)
    (same : r.shown k table = r.shown j other) : Outcome r k table result :=
  ⟨by rw [meets, same]; exact h.fails, by rw [same]; exact h.rows⟩

/-- The first record that the predicate fails on decides, since no row comes out behind a
failure. -/
theorem of_failsOn (hx : r.FailsOn x) (within : Within (r.offset.getD 0) r.size k)
    (error : ExecutionError) : Outcome r k (x :: table) (.error error) :=
  ⟨iff_of_true ⟨error, rfl⟩ (.inl (meetsFailureFrom_cons_of_failsOn hx within)),
    by rintro rows ⟨⟩⟩

/-- A record that is shown comes in front of the rest. -/
theorem cons {j : Nat} {other : List Record} (h : Outcome r j other result)
    (meets : r.MeetsFailureFrom k table ↔ r.MeetsFailureFrom j other)
    (front : r.shown k table = x :: r.shown j other) :
    Outcome r k table (r.rowOf x >>= fun row => result.map (row :: ·)) := by
  refine ⟨?_, fun rows hrows => ?_⟩
  · rw [meets, front]
    simp only [List.mem_cons, exists_eq_or_imp]
    rw [or_left_comm, ← h.fails]
    cases hx : r.rowOf x with
    | error error => exact iff_of_true ⟨error, rfl⟩ (.inl ⟨error, rfl⟩)
    | ok row =>
      constructor
      · rintro ⟨error, herror⟩
        exact .inr ⟨error, map_eq_error.mp herror⟩
      · rintro (⟨error, ⟨⟩⟩ | ⟨error, herror⟩)
        exact ⟨error, map_eq_error.mpr herror⟩
  · obtain ⟨row, hrow, hrest⟩ := bind_eq_ok.mp hrows
    obtain ⟨rest, rfl, rfl⟩ := map_eq_ok.mp hrest
    rw [front, mapM_cons_eq, hrow, h.rows rest rfl]
    rfl

end Outcome

/-- What a request shows of a row; a row that was shown already cannot be shown again. -/
def showRow (r : Request) : Row → Except ExecutionError Row
  | .record x => r.rowOf x
  | .tuple values =>
    match r.projection.expressions? with
    | none => .ok (.tuple values)
    | some _ => .error .projectionOfTuple

open Executor in
/-- The window of a request over what is selected of a table, from a position that as many records
have got to. By induction on the table, where the record at its front fails, is selected or is left
out. -/
theorem outcome_windowed (r : Request) {position : UInt64} {table : List Record}
    (room : position.toNat + table.length < UInt64.size) :
    Outcome r position.toNat table
      ((windowed (r.offset.getD 0) r.size position (table.flatMap r.answerOf)).mapM
        fun answer : Answer => answer.bind r.showRow) := by
  induction table generalizing position with
  | nil => exact .of_nothing not_meetsFailureFrom_nil (slice_nil _)
  | cons x table ih =>
    rw [List.length_cons] at room
    have more : position.toNat + 1 < UInt64.size := by omega
    rw [List.flatMap_cons]
    by_cases within : Within (r.offset.getD 0) r.size position.toNat
    · have notFull := (windowFull_eq_false_iff more).mpr within
      obtain ⟨hx, -, error, ha⟩ | ⟨hx, selected, ha⟩ | ⟨hx, left, ha⟩ := r.answerOf_cases x
      · rw [ha, List.singleton_append, windowed, if_neg (ne_true_of_eq_false notFull),
          mapM_cons_eq]
        exact .of_failsOn hx within error
      · have meets : r.MeetsFailureFrom position.toNat (x :: table) ↔
            r.MeetsFailureFrom (position + 1).toNat table := by
          rw [meetsFailureFrom_cons_iff hx, if_pos selected, toNat_succ more]
        have rest := @ih (position + 1) (by rw [toNat_succ more]; omega)
        rw [ha, List.singleton_append, windowed, if_neg (ne_true_of_eq_false notFull)]
        -- the position counts the record before it is held against the start
        by_cases start : (r.offset.getD 0).toNat ≤ position.toNat
        · rw [if_pos ((lt_succ_iff more).mpr start), mapM_cons_eq]
          refine rest.cons meets ?_
          rw [shown, List.filter_cons_of_pos selected, slice_cons_of_le within start,
            ← toNat_succ more]
          rfl
        · rw [if_neg (mt (lt_succ_iff more).mp start)]
          refine rest.congr meets ?_
          rw [shown, List.filter_cons_of_pos selected, slice_cons_of_lt (Nat.lt_of_not_le start),
            ← toNat_succ more]
          rfl
      · have out : ¬r.selects x = true := ne_true_of_eq_false left
        rw [ha, List.nil_append]
        refine (ih (by omega)).congr ?_ ?_
        · rw [meetsFailureFrom_cons_iff hx, if_neg out]
        · rw [shown, List.filter_cons_of_neg out]
          rfl
    · -- behind the end the rest of the table is not looked at, whatever fails in it
      have full : windowFull (r.offset.getD 0) r.size position :=
        Bool.of_not_eq_false (mt (windowFull_eq_false_iff more).mp within)
      rw [windowed_of_full full]
      exact .of_nothing (mt within_of_meetsFailureFrom within) (slice_of_not_within within _)

end Request

end EntityQuery
