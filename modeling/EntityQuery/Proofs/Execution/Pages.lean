import EntityQuery.Proofs.Execution.Refinement
import EntityQuery.Proofs.Request.Paging

/-!
# Pages of a result

A page is fetched by a run of its own: the table is gone through and sorted again, and a window is
laid over what comes of it. What is below the window is the same in every run, and a run that shows
all of it has shown each of its rows (`exists_below`). So a window shows the part of the whole
result that stands in it (`fetch_window`), and the pages, one behind the other, are the whole result
(`pages_partition`).
-/

namespace EntityQuery

open Request

/-! ## Pages of a list -/

section

variable {α : Type} {size number : Nat}

/-- The items of a page. The pages of a list are counted from zero, and the last one may be
short. -/
def pageOf (size number : Nat) (xs : List α) : List α :=
  xs.extract (number * size) (min ((number + 1) * size) xs.length)

/-- A page as a part of a list: so many pages are dropped and one is taken. -/
theorem pageOf_eq (xs : List α) : pageOf size number xs = (xs.drop (number * size)).take size := by
  rw [pageOf, List.extract, List.take_eq_take_iff, List.length_drop, Nat.succ_mul]
  omega

/-- Behind the last row there are only empty pages. -/
theorem pageOf_of_length_le {xs : List α} (short : xs.length ≤ number * size) :
    pageOf size number xs = [] := by
  rw [pageOf_eq, List.drop_of_length_le short, List.take_nil]

/-- The first pages are the front of the list. -/
theorem flatMap_pageOf (size count : Nat) (xs : List α) :
    (List.range count).flatMap (pageOf size · xs) = xs.take (count * size) := by
  induction count with
  | zero => rw [Nat.zero_mul, List.take_zero, List.range_zero, List.flatMap_nil]
  | succ count ih =>
    rw [List.range_succ, List.flatMap_append, ih, List.flatMap_singleton, pageOf_eq, Nat.succ_mul,
      List.take_add]

/-- How many pages have items on them. -/
def pageCount (size length : Nat) : Nat := (length + size - 1) / size

/-- A page has items on it when it starts in front of the end of the list. -/
theorem lt_pageCount_iff {length : Nat} (positive : 0 < size) :
    number < pageCount size length ↔ number * size < length := by
  rw [pageCount, Nat.lt_iff_add_one_le, Nat.le_div_iff_mul_le positive, Nat.succ_mul]
  omega

/-- There are no more pages than rows, since each of them has a row. -/
theorem pageCount_le (positive : 0 < size) (length : Nat) : pageCount size length ≤ length := by
  refine Nat.le_of_not_lt fun more => ?_
  rw [lt_pageCount_iff positive] at more
  exact Nat.not_lt.mpr (Nat.le_mul_of_pos_right length positive) more

/-- The pages of a list that have items on them. -/
def pagesOf (size : Nat) (xs : List α) : List (List α) :=
  (List.range (pageCount size xs.length)).map (pageOf size · xs)

theorem length_pagesOf (size : Nat) (xs : List α) :
    (pagesOf size xs).length = pageCount size xs.length := by
  rw [pagesOf, List.length_map, List.length_range]

/-- The pages, one behind the other, are the list. -/
theorem flatten_pagesOf (positive : 0 < size) (xs : List α) : (pagesOf size xs).flatten = xs := by
  rw [pagesOf, ← List.flatMap_def, flatMap_pageOf]
  refine List.take_of_length_le (Nat.le_of_not_lt fun more => ?_)
  exact Nat.lt_irrefl _ ((lt_pageCount_iff positive).mpr more)

/-- The pages by number: page after page, up to the last one that has a row. -/
theorem getElem?_pagesOf {xs page : List α} :
    (pagesOf size xs)[number]? = some page ↔
      number < pageCount size xs.length ∧ pageOf size number xs = page := by
  rw [pagesOf, List.getElem?_map, Option.map_eq_some_iff]
  constructor
  · rintro ⟨k, hk, rfl⟩
    obtain ⟨lt, rfl⟩ := List.getElem?_eq_some_iff.mp hk
    rw [List.length_range] at lt
    rw [List.getElem_range]
    exact ⟨lt, rfl⟩
  · rintro ⟨lt, rfl⟩
    exact ⟨number, List.getElem?_range lt, rfl⟩

end

/-! ## Windows over rows -/

namespace Executor

/-- Where nothing fails, a window lets a slice of the rows through. -/
theorem windowed_map_ok {offset position : UInt64} {size : Option UInt64} {rows : List Row}
    (room : position.toNat + rows.length < UInt64.size) :
    windowed offset size position (rows.map .ok) =
      (slice offset size position.toNat rows).map .ok := by
  induction rows generalizing position with
  | nil => rw [slice_nil]; rfl
  | cons row rows ih =>
    rw [List.length_cons] at room
    have more : position.toNat + 1 < UInt64.size := by omega
    have rest := @ih (position + 1) (by rw [toNat_succ more]; omega)
    rw [toNat_succ more] at rest
    by_cases within : Within offset size position.toNat
    · have notFull := (windowFull_eq_false_iff more).mpr within
      rw [List.map_cons, windowed, if_neg (ne_true_of_eq_false notFull), rest]
      by_cases start : offset.toNat ≤ position.toNat
      · rw [if_pos ((lt_succ_iff more).mpr start), slice_cons_of_le within start]
        rfl
      · rw [if_neg (mt (lt_succ_iff more).mp start), slice_cons_of_lt (Nat.lt_of_not_le start)]
    · have full : windowFull offset size position :=
        Bool.of_not_eq_false (mt (windowFull_eq_false_iff more).mp within)
      rw [windowed_of_full full, slice_of_not_within within]
      rfl

end Executor

/-! ## Below the window -/

namespace Request

variable {r : Request} {table : List Record} {as : List Answer}

/-- There are no more answers below the window than records in the table. -/
theorem length_below_le (below : Stage.applyAll r.below (answersOf table) = .ok as) :
    as.length ≤ table.length := by
  refine Nat.le_trans ?_ (r.length_answers_le table)
  by_cases unordered : r.ordering = []
  · cases (below_of_unordered unordered).symm.trans below
    exact Nat.le_refl _
  · rw [below_of_ordered unordered] at below
    obtain ⟨keyed, hkeyed, rfl⟩ := map_eq_ok.mp below
    rw [List.length_map, sortByKeys, List.length_map, length_stableSort]
    exact Nat.le_of_eq (mapM_eq_ok.mp hkeyed).length_eq.symm

end Request

namespace Backend

variable {b : Backend} {r : Request} {rows : List Row}

/-- A request that succeeds is about an entity that exists. -/
theorem known_of_fetch (fetched : b.fetch r = .ok rows) :
    (b.catalog.entity? r.entity).isSome := by
  obtain ⟨opened, ran, -⟩ := bind_eq_ok.mp fetched
  obtain ⟨e, planned, -⟩ := bind_eq_ok.mp ran
  rw [plan] at planned
  cases known : b.catalog.entity? r.entity with
  | none =>
    rw [known] at planned
    cases planned
  | some t => rfl

/-- A request with a result does not project on no columns. -/
theorem nonempty_of_fetch (fetched : b.fetch r = .ok rows) :
    r.projection.expressions? ≠ some [] := by
  intro empty
  rw [fetch_eq (known_of_fetch fetched), answers, stages_eq, Stage.applyAll_append, showing,
    empty] at fetched
  obtain ⟨as, has, -⟩ := bind_eq_ok.mp fetched
  obtain ⟨bs, -, none⟩ := bind_eq_ok.mp has
  cases none

/-- A request with a result has met no failure in its window, and shows the rows that the window
lets through. -/
theorem exists_windowed (fetched : b.fetch r = .ok rows) :
    ∃ (as : List Answer) (lower : List Row),
      Stage.applyAll r.below (answersOf (b.store.scan r.entity)) = .ok as ∧
        as.length < UInt64.size ∧
        Executor.windowed (r.offset.getD 0) r.size 0 as = lower.map .ok ∧
        lower.mapM r.showRow = .ok rows := by
  have known := known_of_fetch fetched
  cases below : Stage.applyAll r.below (answersOf (b.store.scan r.entity)) with
  | error error =>
    rw [fetch_of_below_error known below] at fetched
    cases fetched
  | ok as =>
    have room : as.length < UInt64.size :=
      Nat.lt_of_le_of_lt (Request.length_below_le below) (b.length_scan_lt r)
    rw [fetch_of_below known (nonempty_of_fetch fetched) below room] at fetched
    obtain ⟨lower, through, shown⟩ := mapM_bind_eq_ok.mp fetched
    exact ⟨as, lower, rfl, room, through, shown⟩

/-- Below the window there are rows that do not depend on it. A request without a window shows all
of them. -/
theorem exists_below (unset : r.offset = none ∧ r.size = none) (fetched : b.fetch r = .ok rows) :
    ∃ lower : List Row,
      Stage.applyAll r.below (answersOf (b.store.scan r.entity)) = .ok (lower.map .ok) ∧
        lower.length < UInt64.size ∧ lower.mapM r.showRow = .ok rows := by
  obtain ⟨as, lower, below, room, through, shown⟩ := exists_windowed fetched
  rw [unset.1, unset.2] at through
  have all : as = lower.map .ok := (Executor.windowed_all room).symm.trans through
  rw [all, List.length_map] at room
  exact ⟨lower, all ▸ below, room, shown⟩

/-- Of a request that has a result, a window shows the part of the result that stands in it. -/
theorem fetch_window (unset : r.offset = none ∧ r.size = none) (fetched : b.fetch r = .ok rows)
    (offset size : Option UInt64) :
    b.fetch { r with offset := offset, size := size } =
      .ok ({ r with offset := offset, size := size }.page rows) := by
  obtain ⟨lower, below, room, shown⟩ := exists_below unset fetched
  have known := known_of_fetch fetched
  have nonempty := nonempty_of_fetch fetched
  have again := @fetch_of_below b { r with offset := offset, size := size } (lower.map .ok)
    known nonempty below (by rwa [List.length_map])
  rw [again, Executor.windowed_map_ok (by rwa [UInt64.toNat_zero, Nat.zero_add]),
    mapM_bind_eq_ok]
  refine ⟨_, rfl, ?_⟩
  have part := mapM_eq_ok.mp shown
  rw [UInt64.toNat_zero, ← page_eq_slice, mapM_eq_ok, page, page]
  cases size with
  | none => exact List.forall₂_drop _ part
  | some n => exact List.forall₂_take _ (List.forall₂_drop _ part)

/-! ## Pages of a draft -/

variable {config : Config} {d : Draft}

/-- A draft compiles, and its request has a result. -/
def Yields (b : Backend) (config : Config) (d : Draft) (rows : List Row) : Prop :=
  ∃ r, d.build config = .ok r ∧ b.fetch r = .ok rows

/-- A result has no more rows than 64 bits can count, so the products of page numbers and sizes that
matter do not overflow. -/
theorem length_lt_of_yields (unbounded : d.Unbounded) (yields : b.Yields config d rows) :
    rows.length < UInt64.size := by
  obtain ⟨r, built, fetched⟩ := yields
  obtain ⟨lower, -, room, shown⟩ := exists_below (unbounded.request built) fetched
  rwa [← (mapM_eq_ok.mp shown).length_eq]

/-- A page of a draft that takes all rows is that page of its result. -/
theorem yields_page (unbounded : d.Unbounded) (yields : b.Yields config d rows)
    {number size : UInt64} (fits : number.toNat * size.toNat < UInt64.size) :
    b.Yields config (d.page number size) (pageOf size.toNat number.toNat rows) := by
  obtain ⟨r, built, fetched⟩ := yields
  refine ⟨{ r with offset := some (number * size), size := some size }, ?_, ?_⟩
  · rw [Draft.build_page unbounded built, if_pos fits]
  · have start : (number * size).toNat = number.toNat * size.toNat := by
      rw [UInt64.toNat_mul]
      exact Nat.mod_eq_of_lt fits
    rw [fetch_window (unbounded.request built) fetched, pageOf_eq, ← start]
    rfl

/-- The pages of a result are the result. Each page that does not start past the greatest number is
fetched with the rows that stand on it, and a page that does is refused. The pages from the first
one on are finitely many, one behind the other they are the whole result, and every page behind
them is empty. -/
theorem pages_partition (unbounded : d.Unbounded) (yields : b.Yields config d rows)
    {size : UInt64} (positive : 0 < size) :
    (∀ number : UInt64, number.toNat * size.toNat < UInt64.size →
      b.Yields config (d.page number size) (pageOf size.toNat number.toNat rows)) ∧
    (∀ number : UInt64, UInt64.size ≤ number.toNat * size.toNat →
      (d.page number size).build config =
        .error (.ofCause (.invalidArgument (.pageOverflow number size)))) ∧
    ∃ pages : List (List Row), pages.flatten = rows ∧ pages.length < UInt64.size ∧
      (∀ (number : UInt64) (page : List Row), pages[number.toNat]? = some page →
        b.Yields config (d.page number size) page) ∧
      ∀ number : UInt64, pages.length ≤ number.toNat →
        number.toNat * size.toNat < UInt64.size → b.Yields config (d.page number size) [] := by
  have fetches : ∀ number : UInt64, number.toNat * size.toNat < UInt64.size →
      b.Yields config (d.page number size) (pageOf size.toNat number.toNat rows) :=
    fun number fits => yields_page unbounded yields fits
  have refuses : ∀ number : UInt64, UInt64.size ≤ number.toNat * size.toNat →
      (d.page number size).build config =
        .error (.ofCause (.invalidArgument (.pageOverflow number size))) := by
    intro number exceeds
    obtain ⟨r, built, -⟩ := yields
    rw [Draft.build_page unbounded built, if_neg (Nat.not_lt.mpr exceeds)]
  have room : rows.length < UInt64.size := length_lt_of_yields unbounded yields
  have nonzero : 0 < size.toNat := UInt64.lt_iff_toNat_lt.mp positive
  refine ⟨fetches, refuses, pagesOf size.toNat rows, flatten_pagesOf nonzero rows, ?_, ?_, ?_⟩
  · -- there are no more pages than rows
    rw [length_pagesOf]
    exact Nat.lt_of_le_of_lt (pageCount_le nonzero _) room
  · intro number page hpage
    obtain ⟨lt, rfl⟩ := getElem?_pagesOf.mp hpage
    exact fetches number (Nat.lt_trans ((lt_pageCount_iff nonzero).mp lt) room)
  · intro number behind fits
    rw [length_pagesOf, ← Nat.not_lt, lt_pageCount_iff nonzero, Nat.not_lt] at behind
    rw [← pageOf_of_length_le behind]
    exact fetches number fits

/-- The names of the screws that have another name than z, the longest first. -/
def screwsByLength : Draft :=
  ((Draft.of "Screw" (.columns "name")).filter "name!=z").sortBy "size.desc"

/-- Two screws on a page: the third one is on a page of its own, there is nothing behind it, and no
page starts at the 64th power of two. -/
theorem pages_partition_screws :
    let config := Config.standard Sample.catalog
    ∃ rows, rows.length = 3 ∧ threeScrews.Yields config screwsByLength rows ∧
      threeScrews.Yields config (screwsByLength.page 1 2) (rows.drop 2) ∧
      threeScrews.Yields config (screwsByLength.page 2 2) [] ∧
      (screwsByLength.page 9223372036854775808 2).build config =
        .error (.ofCause (.invalidArgument (.pageOverflow 9223372036854775808 2))) := by
  intro config
  have computed : ((screwsByLength.build config).toOption.bind fun r =>
      (threeScrews.fetch r).toOption.map List.length) = some 3 := by decide +kernel
  obtain ⟨r, built, ran⟩ := Option.bind_eq_some_iff.mp computed
  obtain ⟨rows, fetched, three⟩ := Option.map_eq_some_iff.mp ran
  have yields : threeScrews.Yields config screwsByLength rows :=
    ⟨r, ok_of_toOption built, ok_of_toOption fetched⟩
  have unbounded : screwsByLength.Unbounded := ⟨rfl, rfl, rfl⟩
  obtain ⟨fetches, refuses, -⟩ :=
    pages_partition unbounded yields (show (0 : UInt64) < 2 by decide)
  have second : pageOf 2 1 rows = rows.drop 2 := by
    rw [pageOf_eq]
    exact List.take_of_length_le (by rw [List.length_drop, three]; decide)
  have third : pageOf 2 2 rows = [] := pageOf_of_length_le (by rw [three]; decide)
  exact ⟨rows, three, yields, second ▸ fetches 1 (by decide), third ▸ fetches 2 (by decide),
    refuses _ (by decide)⟩

end Backend

end EntityQuery
