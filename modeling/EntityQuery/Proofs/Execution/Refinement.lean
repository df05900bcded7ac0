import EntityQuery.Proofs.Execution.Sorted

/-!
# Requests refine list queries

The stages of a request are there only when it needs them. Whatever stands below the window gives
answers, and above it the rows are shown (`fetch_of_below`). What stands below is the selected part
of the table as it is gone through, or, under an ordering, that part sorted (`below_of_unordered`,
`below_of_ordered`). A sort takes its whole table first, so it fails when any record of it does
(`sort_apply_of_failsOn`); otherwise it arranges the records by their keys, in the one way that
there is (`OrderKey.Arranges`).
-/

namespace EntityQuery

open Stage (keyedRow)

namespace Request

/-! ## The stages of a request -/

/-- The stages below the window. -/
def below (r : Request) : List Stage :=
  (r.predicate.map Stage.filter).toList ++ if r.ordering = [] then [] else [.sort r.ordering]

/-- The window stage, if there is one. -/
def bounding (r : Request) : List Stage :=
  if r.offset.isSome || r.size.isSome then [.window r.offset r.size] else []

/-- The projection stage, if there is one. -/
def showing (r : Request) : List Stage := (r.projection.expressions?.map Stage.project).toList

/-- The stages of a request are those below the window, the window, and the projection above it. -/
theorem stages_eq (r : Request) : r.stages = r.below ++ r.bounding ++ r.showing := rfl

/-- A window that is left out would have let everything through. So the stages are as if there were
always one, and the proof of the window needs no case for its absence. -/
theorem bounding_apply (r : Request) {as : List Answer} (room : as.length < UInt64.size) :
    Stage.applyAll r.bounding as =
      .ok (Executor.windowed (r.offset.getD 0) r.size 0 as) := by
  unfold bounding
  split
  · rfl
  · next open_ =>
    obtain ⟨entity, predicate, projection, ordering, offset, size⟩ := r
    cases offset with
    | some m => exact absurd rfl open_
    | none =>
      cases size with
      | some n => exact absurd rfl open_
      | none => exact congrArg Except.ok (Executor.windowed_all room).symm

/-- Without a projection a row is shown as it is. -/
theorem showRow_of_root {r : Request} (root : r.projection.expressions? = none) (row : Row) :
    r.showRow row = .ok row := by
  cases row with
  | record x => rw [showRow, rowOf, root]
  | tuple values => rw [showRow, root]

/-- The projection of one answer is what the request shows of it. Failures from below pass
through. -/
theorem treat_projectRow {r : Request} {es : List Expression}
    (columns : r.projection.expressions? = some es) (answer : Answer) :
    Answer.treat (Stage.projectRow es) answer = [answer.bind r.showRow] := by
  match answer with
  | .error error => rfl
  | .ok (.tuple values) =>
    dsimp only [Except.bind]
    rw [showRow, columns]
    rfl
  | .ok (.record x) =>
    dsimp only [Except.bind, Answer.treat, Stage.projectRow]
    rw [showRow, rowOf, columns]
    dsimp only
    cases es.mapM (Stage.columnValue x) with
    | error error => rfl
    | ok values => rfl

/-- Reading the answers of the projection stage is showing each answer below it. -/
theorem showing_apply (r : Request) (nonempty : r.projection.expressions? ≠ some [])
    (as : List Answer) :
    ((Stage.applyAll r.showing as).bind fun bs => bs.mapM id) =
      as.mapM fun answer : Answer => answer.bind r.showRow := by
  unfold showing
  cases columns : r.projection.expressions? with
  | none =>
    refine congrArg (as.mapM ·) (funext fun answer => ?_)
    cases answer with
    | error error => rfl
    | ok row => exact (showRow_of_root columns row).symm
  | some es =>
    have applied : Stage.applyAll [.project es] as =
        .ok (as.flatMap (Answer.treat (Stage.projectRow es))) := by
      cases es with
      | nil => exact absurd columns nonempty
      | cons e es => rfl
    have shown : as.flatMap (Answer.treat (Stage.projectRow es)) =
        as.map fun answer : Answer => answer.bind r.showRow := by
      rw [List.map_eq_flatMap, funext (treat_projectRow columns)]
    refine (congrArg (Except.bind · _) applied).trans ?_
    rw [shown]
    exact List.mapM_map

/-! ## Below the window -/

variable {r : Request} {table xs : List Record}

/-- What is selected of a table, failures included. -/
theorem selecting_apply (r : Request) (table : List Record) :
    Stage.applyAll (r.predicate.map Stage.filter).toList (answersOf table) =
      .ok (table.flatMap r.answerOf) := by
  cases predicate : r.predicate with
  | none =>
    have one : r.answerOf = fun x => [.ok (.record x)] := by
      funext x
      rw [answerOf, predicate]
    rw [one, ← List.map_eq_flatMap]
    rfl
  | some p =>
    have one : r.answerOf = fun x => (Stage.filterRow p (.record x)).answer := by
      funext x
      rw [answerOf, predicate]
    rw [one]
    exact congrArg Except.ok (List.flatMap_map _ _ table)

/-- Where the predicate does not fail, the answers are the selected records. -/
theorem answers_of_fine (fine : ∀ x ∈ table, ¬r.FailsOn x) :
    table.flatMap r.answerOf = answersOf (table.filter r.selects) := by
  induction table with
  | nil => rfl
  | cons x table ih =>
    rw [List.flatMap_cons, ih fun y hy => fine y (List.mem_cons_of_mem _ hy)]
    obtain ⟨hx, -⟩ | ⟨-, selected, ha⟩ | ⟨-, left, ha⟩ := r.answerOf_cases x
    · exact absurd hx (fine x List.mem_cons_self)
    · rw [ha, List.filter_cons_of_pos selected]
      rfl
    · rw [ha, List.filter_cons_of_neg (ne_true_of_eq_false left)]
      rfl

/-- Records whose keys can be sorted are sorted stably. -/
theorem sort_apply (sorts : ∀ key ∈ r.ordering, key.Sorts xs) :
    (Stage.sort r.ordering).apply (answersOf xs) = .ok (answersOf (xs.mergeSort r.precedes)) := by
  have keyed : (answersOf xs).mapM (fun answer : Answer => answer.bind (keyedRow r.ordering)) =
      .ok (xs.map fun x => (r.keys x, Row.record x)) := by
    refine Eq.trans ?_ (mapM_keyedRow r.ordering xs)
    rw [answersOf, List.mapM_map, List.mapM_map]
    rfl
  have sorted : sortByKeys (r.ordering.map (·.direction))
      (xs.map fun x => (r.keys x, Row.record x)) = (xs.mergeSort r.precedes).map .record :=
    sortByKeys_records sorts
  rw [Stage.apply, keyed]
  change Except.ok ((sortByKeys _ _).map (Except.ok : Row → Answer)) = _
  rw [sorted, List.map_map]
  rfl

/-- What a request asks of its keys, it asks of those of the records that it sorts. -/
theorem SortsOn.selected (sorts : r.SortsOn table) :
    ∀ key ∈ r.ordering, key.Sorts (table.filter r.selects) := by
  intro key hkey
  obtain ⟨kind, each⟩ := sorts key hkey
  refine ⟨kind, fun x hx => ?_⟩
  obtain ⟨mem, selected⟩ := List.mem_filter.mp hx
  exact each x mem selected

/-- A sort fails with the predicate on any record of the table. Which failure it is, is left open:
of several the first one wins. -/
theorem sort_apply_of_failsOn {x : Record} (hx : x ∈ table) (fails : r.FailsOn x) :
    ∃ error, (Stage.sort r.ordering).apply (table.flatMap r.answerOf) = .error error := by
  obtain ⟨-, -, error, ha⟩ | ⟨fine, -⟩ | ⟨fine, -⟩ := r.answerOf_cases x
  · have met : Except.error error ∈ table.flatMap r.answerOf :=
      List.mem_flatMap.mpr ⟨x, hx, by rw [ha]; exact List.mem_singleton_self _⟩
    rw [Stage.apply]
    cases keyed : (table.flatMap r.answerOf).mapM fun answer : Answer =>
        answer.bind (keyedRow r.ordering) with
    | error e => exact ⟨e, rfl⟩
    | ok rows =>
      obtain ⟨row, -, h⟩ := ok_of_mem_mapM keyed met
      cases h
  · exact absurd fails fine
  · exact absurd fails fine

/-- Without an ordering the answers below the window are those of the table as it is gone through,
failures included. -/
theorem below_of_unordered (unordered : r.ordering = []) :
    Stage.applyAll r.below (answersOf table) = .ok (table.flatMap r.answerOf) := by
  rw [below, if_pos unordered, List.append_nil]
  exact selecting_apply r table

/-- Under an ordering it is sorted. -/
theorem below_of_ordered (ordered : r.ordering ≠ []) :
    Stage.applyAll r.below (answersOf table) =
      (Stage.sort r.ordering).apply (table.flatMap r.answerOf) := by
  rw [below, if_neg ordered, Stage.applyAll_append, selecting_apply]
  exact bind_pure _

/-- Each record gives one answer or none. -/
theorem length_answers_le (r : Request) (table : List Record) :
    (table.flatMap r.answerOf).length ≤ table.length := by
  induction table with
  | nil => exact Nat.le_refl 0
  | cons x table ih =>
    have one : (r.answerOf x).length ≤ 1 := by
      obtain ⟨-, -, error, ha⟩ | ⟨-, -, ha⟩ | ⟨-, -, ha⟩ := r.answerOf_cases x <;> rw [ha]
      · exact Nat.le_refl 1
      · exact Nat.le_refl 1
      · exact Nat.zero_le 1
    rw [List.flatMap_cons, List.length_append, List.length_cons]
    omega

/-! ## What is listed -/

theorem page_eq_slice {α : Type} (r : Request) (xs : List α) :
    r.page xs = slice (r.offset.getD 0) r.size 0 xs := (slice_zero xs).symm

/-- Without keys all records tie, so arranging them leaves them in the order of the table. -/
theorem listed_of_unordered (unordered : r.ordering = []) : r.listed table = r.shown 0 table := by
  have all : ∀ x y, r.precedes x y := by
    intro x y
    rw [precedes, unordered]
    rfl
  rw [listed, arranged, List.mergeSort_of_pairwise (List.pairwise_of_forall all), page_eq_slice]
  rfl

/-- Once the records are selected and sorted, all of them are listed that are in the window. -/
theorem listed_eq_shown : r.listed table =
    { r with predicate := none }.shown 0 (r.arranged table) := by
  rw [listed, page_eq_slice]
  exact congrArg (slice _ _ 0) (List.filter_eq_self.mpr fun _ _ => rfl).symm

/-- Without a predicate no failure is met. -/
theorem not_meetsFailureFrom (r : Request) (k : Nat) (xs : List Record) :
    ¬{ r with predicate := none }.MeetsFailureFrom k xs := by
  rintro ⟨before, x, behind, -, ⟨p, m, ⟨⟩, -⟩, -⟩

/-- A request fails over a table: with its predicate on a record that it looks at, or with its
projection on one that it lists. -/
def Fails (r : Request) (table : List Record) : Prop :=
  (if r.ordering = [] then r.MeetsFailure table else ∃ x ∈ table, r.FailsOn x) ∨
    ∃ x ∈ r.listed table, ∃ error, r.rowOf x = .error error

end Request

theorem Projection.root_of_expressions? {p : Projection} (h : p.expressions? = none) :
    p = .root := by
  cases p with
  | root => rfl
  | paths ps => cases h
  | expressions es => cases h

/-- A row shows a record whole, or has a value for each column. -/
def Row.Shows (p : Projection) (columns : List String) : Row → Prop
  | .record _ => p = .root
  | .tuple values => p ≠ .root ∧ values.length = columns.length

namespace Backend

open Request

variable {b : Backend} {r : Request}

/-! ## Running requests -/

/-- What fails below the window fails the request. -/
theorem fetch_of_below_error {error : ExecutionError}
    (known : (b.catalog.entity? r.entity).isSome)
    (below : Stage.applyAll r.below (answersOf (b.store.scan r.entity)) = .error error) :
    b.fetch r = .error error := by
  rw [fetch_eq known, answers, stages_eq, Stage.applyAll_append, Stage.applyAll_append, below]
  rfl

/-- Of what is below its window, a request shows what is in the window. -/
theorem fetch_of_below {as : List Answer} (known : (b.catalog.entity? r.entity).isSome)
    (nonempty : r.projection.expressions? ≠ some [])
    (below : Stage.applyAll r.below (answersOf (b.store.scan r.entity)) = .ok as)
    (room : as.length < UInt64.size) :
    b.fetch r = (Executor.windowed (r.offset.getD 0) r.size 0 as).mapM
      fun answer : Answer => answer.bind r.showRow := by
  rw [fetch_eq known, answers, stages_eq, Stage.applyAll_append, Stage.applyAll_append, below]
  change ((Stage.applyAll r.bounding as).bind _).bind _ = _
  rw [bounding_apply r room]
  exact showing_apply r nonempty _

/-- A table has no more records than 64 bits can count. So a window that is wide open lets all of
them through. -/
theorem length_scan_lt (b : Backend) (r : Request) :
    (b.store.scan r.entity).length < UInt64.size :=
  Nat.lt_of_le_of_lt (List.length_filter_le _ _) b.store.length_lt

/-- Without an ordering the result is what comes of the window over the table. -/
theorem outcome_of_unordered (known : (b.catalog.entity? r.entity).isSome)
    (nonempty : r.projection.expressions? ≠ some []) (unordered : r.ordering = []) :
    Outcome r 0 (b.store.scan r.entity) (b.fetch r) := by
  have room : (b.store.scan r.entity).length < UInt64.size := b.length_scan_lt r
  rw [fetch_of_below known nonempty (below_of_unordered unordered)
    (Nat.lt_of_le_of_lt (r.length_answers_le _) room)]
  exact @outcome_windowed r 0 _ (by rwa [UInt64.toNat_zero, Nat.zero_add])

/-- Under an ordering, the result of a request whose predicate does not fail is what comes of the
window over the sorted records. -/
theorem outcome_of_ordered (known : (b.catalog.entity? r.entity).isSome)
    (nonempty : r.projection.expressions? ≠ some []) (ordered : r.ordering ≠ [])
    (sorts : r.SortsOn (b.store.scan r.entity))
    (fine : ∀ x ∈ b.store.scan r.entity, ¬r.FailsOn x) :
    Outcome { r with predicate := none } 0 (r.arranged (b.store.scan r.entity)) (b.fetch r) := by
  have below : Stage.applyAll r.below (answersOf (b.store.scan r.entity)) =
      .ok (answersOf (r.arranged (b.store.scan r.entity))) := by
    rw [below_of_ordered ordered, answers_of_fine fine]
    exact sort_apply sorts.selected
  have room : (r.arranged (b.store.scan r.entity)).length < UInt64.size := by
    rw [arranged, List.length_mergeSort]
    exact Nat.lt_of_le_of_lt (List.length_filter_le _ _) (b.length_scan_lt r)
  rw [fetch_of_below known nonempty below (by rwa [answersOf, List.length_map]), answersOf,
    List.map_eq_flatMap]
  exact @outcome_windowed { r with predicate := none } 0 _
    (by rwa [UInt64.toNat_zero, Nat.zero_add])

/-- A request fails when it has to, and its rows are those of its list query. -/
theorem fetch_outcome (known : (b.catalog.entity? r.entity).isSome)
    (nonempty : r.projection.expressions? ≠ some [])
    (sorts : r.SortsOn (b.store.scan r.entity)) :
    ((∃ error, b.fetch r = .error error) ↔ r.Fails (b.store.scan r.entity)) ∧
      ∀ rows, b.fetch r = .ok rows → r.listQuery (b.store.scan r.entity) = .ok rows := by
  unfold Fails listQuery
  by_cases unordered : r.ordering = []
  · have outcome := outcome_of_unordered known nonempty unordered
    rw [if_pos unordered, listed_of_unordered unordered, ← meetsFailureFrom_zero_iff]
    exact ⟨outcome.fails, outcome.rows⟩
  · rw [if_neg unordered]
    -- the sort takes the whole table, so one failure anywhere in it is enough
    by_cases failing : ∃ x ∈ b.store.scan r.entity, r.FailsOn x
    · obtain ⟨x, hx, fails⟩ := failing
      obtain ⟨error, herror⟩ := sort_apply_of_failsOn hx fails
      have failed : b.fetch r = .error error :=
        fetch_of_below_error known ((below_of_ordered unordered).trans herror)
      refine ⟨iff_of_true ⟨error, failed⟩ (.inl ⟨x, hx, fails⟩), fun rows h => ?_⟩
      rw [failed] at h
      cases h
    · have outcome := outcome_of_ordered known nonempty unordered sorts
        fun x hx fails => failing ⟨x, hx, fails⟩
      rw [listed_eq_shown, or_iff_right failing]
      exact ⟨outcome.fails.trans (or_iff_right (not_meetsFailureFrom r _ _)), outcome.rows⟩

/-! ## Columns -/

/-- A request that succeeds has columns: asking for them opens the same stages. -/
theorem columns_of_fetch {rows : List Row} (known : (b.catalog.entity? r.entity).isSome)
    (h : b.fetch r = .ok rows) : b.columns r = .ok (b.columnNames r) := by
  rw [fetch_eq known] at h
  obtain ⟨as, has, -⟩ := bind_eq_ok.mp h
  rw [columns_eq known, has]
  rfl

/-- Under a projection there is a column for each of its expressions. -/
theorem columnNames_of_projection {es : List Expression}
    (columns : r.projection.expressions? = some es) :
    b.columnNames r = es.map Stage.columnName := by
  rw [columnNames, stages_eq, List.foldl_append, showing, columns]
  rfl

/-- What is shown of a record has the shape that the columns announce. -/
theorem shows_of_rowOf {x : Record} {row : Row} (h : r.rowOf x = .ok row) :
    row.Shows r.projection (b.columnNames r) := by
  unfold rowOf at h
  cases columns : r.projection.expressions? with
  | none =>
    rw [columns] at h
    cases h
    exact Projection.root_of_expressions? columns
  | some es =>
    rw [columns] at h
    obtain ⟨values, hvalues, rfl⟩ := map_eq_ok.mp h
    refine ⟨?_, ?_⟩
    · rintro root
      rw [root] at columns
      cases columns
    · rw [columnNames_of_projection columns, List.length_map, (mapM_eq_ok.mp hvalues).length_eq]

/-- A request is its list query. The records that it selects are arranged by its keys, which leaves
one list only. It fails when it has to and only then; if it does not, it has the rows of the list
query, and columns that they fit. -/
theorem fetch_refines_listQuery (known : (b.catalog.entity? r.entity).isSome)
    (nonempty : r.projection.expressions? ≠ some [])
    (sorts : r.SortsOn (b.store.scan r.entity)) :
    (∀ ys, OrderKey.Arranges r.ordering ((b.store.scan r.entity).filter r.selects) ys ↔
        ys = r.arranged (b.store.scan r.entity)) ∧
      ((∃ error, b.fetch r = .error error) ↔ r.Fails (b.store.scan r.entity)) ∧
      ∀ rows, b.fetch r = .ok rows →
        r.listQuery (b.store.scan r.entity) = .ok rows ∧
        ∃ names, b.columns r = .ok names ∧ ∀ row ∈ rows, row.Shows r.projection names := by
  obtain ⟨fails, refines⟩ := fetch_outcome known nonempty sorts
  refine ⟨fun ys => OrderKey.arranges_iff sorts.selected, fails, fun rows h => ?_⟩
  refine ⟨refines rows h, _, columns_of_fetch known h, fun row hrow => ?_⟩
  obtain ⟨x, -, hx⟩ := mem_of_mem_mapM (refines rows h) hrow
  exact shows_of_rowOf hx

/-- Three screws, one of them without a size. -/
def threeScrews : Backend := ⟨Sample.catalog, Store.ofRecords
  [Record.ofFields "Screw" [("name", .text "a"), ("size", Sample.int64 3)],
    Record.ofFields "Screw" [("name", .text "b")],
    Record.ofFields "Screw" [("name", .text "c"), ("size", Sample.int64 5)]]⟩

/-- The names of all screws but the longest, the longest first. The end of the window is beyond
what 64 bits can count. -/
def byLength : Request where
  entity := "Screw"
  predicate := some (.check .isNotNull (.path ((Path.root "Screw").property "name" .string)))
  projection := .paths [(Path.root "Screw").property "name" .string]
  ordering := [⟨(Path.root "Screw").property "size" .numeric, .descending⟩]
  offset := some 1
  size := some (UInt64.ofNat (UInt64.size - 1))

/-- The offset drops the longest screw, and the one without a size is the last. -/
theorem fetch_refines_listQuery_screws :
    let table := threeScrews.store.scan "Screw"
    ∃ rows, threeScrews.fetch byLength = .ok rows ∧ rows.map Row.display = ["('a')", "('b')"] ∧
      byLength.listQuery table = .ok rows ∧
      ∃ ys, OrderKey.Arranges byLength.ordering (table.filter byLength.selects) ys ∧
        (byLength.page ys).mapM byLength.rowOf = .ok rows := by
  intro table
  have computed : (threeScrews.fetch byLength).toOption.map (List.map Row.display) =
      some ["('a')", "('b')"] := by decide +kernel
  obtain ⟨rows, ran, names⟩ := Option.map_eq_some_iff.mp computed
  have fetched := ok_of_toOption ran
  have sorts : byLength.SortsOn (threeScrews.store.scan "Screw") := by
    rintro key (_ | ⟨_, ⟨⟩⟩)
    refine ⟨.integer, ?_⟩
    rintro x (_ | ⟨_, _ | ⟨_, _ | ⟨_, ⟨⟩⟩⟩⟩) -
    · exact .inr rfl
    · exact .inl rfl
    · exact .inr rfl
  obtain ⟨arranged, -, refined⟩ := fetch_refines_listQuery (b := threeScrews) (r := byLength)
    (by decide +kernel) (by rintro ⟨⟩) sorts
  have listed := (refined rows fetched).1
  exact ⟨rows, fetched, names, listed, _, (arranged _).mpr rfl, listed⟩

end Backend

end EntityQuery
