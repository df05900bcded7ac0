import EntityQuery.Proofs.Execution.ListQuery
import EntityQuery.Sample

/-!
# What a sort delivers

What it means for rows to be sorted is said here of the values that their keys have, and not of the
comparison that sorts them. Of two values one is below the other as the data that they hold are, and
null is below all of them (`Value.Below`); values share a place when they are the same, or the same
integer in two widths, or have no order at all (`Value.SharesPlace`). A record precedes another one
when it does in the first key in which they do not tie, with the direction of the key
(`OrderKey.Precedes`).

As long as the values of each key are null or of one kind, only one list holds given records in this
order, none lost or added, and those that tie in the order in which they came
(`OrderKey.arranges_iff`). It is what a sort delivers of the rows of the executor below it
(`Executor.sort_delivers`).
-/

namespace EntityQuery

open Stage (keyValue keyedRow)

/-! ## The order of values -/

namespace DateTime

variable {s t : DateTime}

/-- The parts of a moment, the greatest unit first. -/
def parts (t : DateTime) : List Int :=
  [t.date.year, t.date.month, t.date.day, t.time.hour, t.time.minute, t.time.second,
    t.time.nanosecond]

/-- Moments are compared by their parts. -/
theorem compare_eq_lt_iff : s.compare t = .lt ↔ s.parts < t.parts := by
  simp only [compare, Date.compare, Time.compare, Ordering.then_assoc, Ordering.then_eq_lt,
    Int.compare_eq_lt, Int.compare_eq_eq, Nat.compare_eq_lt, Nat.compare_eq_eq, parts,
    List.cons_lt_cons_iff, List.not_lt_nil, and_false, or_false, Int.ofNat_lt, Int.natCast_inj]

/-- No two moments have the same parts. -/
theorem compare_eq_eq_iff : s.compare t = .eq ↔ s = t := by
  obtain ⟨⟨_, _, _, _, _, _, _⟩, ⟨_, _, _, _, _, _, _, _⟩⟩ := s
  obtain ⟨⟨_, _, _, _, _, _, _⟩, ⟨_, _, _, _, _, _, _, _⟩⟩ := t
  simp [compare, Date.compare, Time.compare]

end DateTime

namespace Value

variable {a b : Value} {kind : SortKind}

/-- A value is below another one: null below all others, and data of one kind as they are
ordered. -/
inductive Below : Value → Value → Prop
  | null {v : Value} (known : v.isNull = false) : Below .null v
  | boolean : Below (.boolean false) (.boolean true)
  | character {c d : Char} (h : c.toNat < d.toNat) : Below (.character c) (.character d)
  | integer {m n : SizedInt} (h : m.toInt < n.toInt) : Below (.integer m) (.integer n)
  | text {s t : String} (h : s < t) : Below (.text s) (.text t)
  | constant {s t : String} (h : s < t) : Below (.constant s) (.constant t)
  | dateTime {s t : DateTime} (h : s.parts < t.parts) : Below (.dateTime s) (.dateTime t)

/-- Values that a sort leaves side by side: the same ones, the same integer in two widths, and two
lists or two records, which have no order among themselves. -/
inductive SharesPlace : Value → Value → Prop
  | same (v : Value) : SharesPlace v v
  | integers {m n : SizedInt} (h : m.toInt = n.toInt) : SharesPlace (.integer m) (.integer n)
  | lists (us vs : List Value) : SharesPlace (.list us) (.list vs)
  | records (x y : Record) : SharesPlace (.record x) (.record y)

/-- What a comparison says of two values. -/
structure Ordered (a b : Value) (outcome : Ordering) : Prop where
  below : outcome = .lt ↔ a.Below b
  shares : outcome = .eq ↔ a.SharesPlace b

/-- Null is below all other values, and shares its place with null only. -/
theorem ordered_null (b : Value) : Ordered .null b (compareAscending .null b) := by
  cases known : b.isNull with
  | true =>
    cases b with
    | null => exact ⟨⟨nofun, fun | .null h => nomatch h⟩, iff_of_true rfl (.same _)⟩
    | _ => cases known
  | false =>
    have less : compareAscending .null b = .lt := by
      rw [compareAscending, known]
      rfl
    refine ⟨iff_of_true less (.null known), iff_of_false (by rw [less]; nofun) fun h => ?_⟩
    cases h
    cases known

theorem ordered_of_null (known : a.isNull = false) :
    Ordered a .null (a.compareAscending .null) := by
  have greater : a.compareAscending .null = .gt := by
    rw [compareAscending, known]
    rfl
  rw [greater]
  refine ⟨iff_of_false nofun ?_, iff_of_false nofun ?_⟩
  · intro below
    cases below with
    | null h => cases h
  · intro shares
    cases shares
    cases known

/-- Among values of one kind the comparison is the one of the data that they hold. -/
theorem ordered_of_kind (ha : a.sortKind? = some kind) (hb : b.sortKind? = some kind) :
    Ordered a b (a.compareAscending b) := by
  cases pair_of_sortKind? ha hb with
  | boolean x y =>
    cases x with
    | false =>
      cases y with
      | false => exact ⟨iff_of_false nofun nofun, iff_of_true rfl (.same _)⟩
      | true => exact ⟨iff_of_true rfl .boolean, iff_of_false nofun nofun⟩
    | true =>
      cases y with
      | false => exact ⟨iff_of_false nofun nofun, iff_of_false nofun nofun⟩
      | true => exact ⟨iff_of_false nofun nofun, iff_of_true rfl (.same _)⟩
  | character c d =>
    exact ⟨Nat.compare_eq_lt.trans ⟨.character, fun | .character h => h⟩,
      (Nat.compare_eq_eq.trans Char.toNat_inj).trans ⟨fun | rfl => .same _, fun | .same _ => rfl⟩⟩
  | integer m n =>
    exact ⟨Int.compare_eq_lt.trans ⟨.integer, fun | .integer h => h⟩,
      Int.compare_eq_eq.trans ⟨.integers, fun | .same _ => rfl | .integers h => h⟩⟩
  | text s t =>
    exact ⟨compareText_eq_lt_iff.trans ⟨.text, fun | .text h => h⟩,
      compareText_eq_eq_iff.trans ⟨fun | rfl => .same _, fun | .same _ => rfl⟩⟩
  | constant s t =>
    exact ⟨compareText_eq_lt_iff.trans ⟨.constant, fun | .constant h => h⟩,
      compareText_eq_eq_iff.trans ⟨fun | rfl => .same _, fun | .same _ => rfl⟩⟩
  | dateTime s t =>
    exact ⟨DateTime.compare_eq_lt_iff.trans ⟨.dateTime, fun | .dateTime h => h⟩,
      DateTime.compare_eq_eq_iff.trans ⟨fun | rfl => .same _, fun | .same _ => rfl⟩⟩
  | list us vs => exact ⟨iff_of_false nofun nofun, iff_of_true rfl (.lists us vs)⟩
  | record x y => exact ⟨iff_of_false nofun nofun, iff_of_true rfl (.records x y)⟩

/-- In a column of one kind the comparison is the one of the values. -/
theorem ordered (ha : a.SortsAs kind) (hb : b.SortsAs kind) :
    Ordered a b (a.compareAscending b) := by
  rcases ha with rfl | ha
  · exact ordered_null b
  · rcases hb with rfl | hb
    · refine ordered_of_null ?_
      cases a <;> first | rfl | cases ha
    · exact ordered_of_kind ha hb

end Value

/-! ## The order of records -/

namespace OrderKey

variable {key : OrderKey} {ordering : List OrderKey} {x y : Record}

/-- A record is before another one in a key. -/
def Before (key : OrderKey) (x y : Record) : Prop :=
  match key.direction with
  | .ascending => (key.valueIn x).Below (key.valueIn y)
  | .descending => (key.valueIn y).Below (key.valueIn x)

/-- Two records tie in a key. -/
def Ties (key : OrderKey) (x y : Record) : Prop := (key.valueIn x).SharesPlace (key.valueIn y)

/-- A record precedes another one by the first key in which they do not tie. -/
inductive Precedes : List OrderKey → Record → Record → Prop
  | here {key : OrderKey} {keys : List OrderKey} {x y : Record} (before : key.Before x y) :
    Precedes (key :: keys) x y
  | behind {key : OrderKey} {keys : List OrderKey} {x y : Record} (tie : key.Ties x y)
    (rest : Precedes keys x y) : Precedes (key :: keys) x y

/-- Two records tie in all keys. -/
def TieInAll (ordering : List OrderKey) (x y : Record) : Prop := ∀ key ∈ ordering, key.Ties x y

/-- The values of a key in some records are null or of one kind. -/
def Sorts (key : OrderKey) (xs : List Record) : Prop :=
  ∃ kind, ∀ x ∈ xs, (key.valueIn x).SortsAs kind

/-- A list holds given records as an ordering wants them: none is lost or added, none stands behind
one that it precedes, and those that tie in all keys are in the order in which they came. -/
structure Arranges (ordering : List OrderKey) (xs ys : List Record) : Prop where
  perm : ys.Perm xs
  ordered : ys.Pairwise fun x y => Precedes ordering x y ∨ TieInAll ordering x y
  kept : ∀ zs : List Record, zs.Sublist xs → zs.Pairwise (TieInAll ordering) → zs.Sublist ys

/-- The comparison by which records are sorted. -/
def compareBy (ordering : List OrderKey) (x y : Record) : Ordering :=
  compareKeys (ordering.map (·.direction)) (ordering.map (·.valueIn x)) (ordering.map (·.valueIn y))

/-- The records in order. -/
def sorted (ordering : List OrderKey) (xs : List Record) : List Record :=
  xs.mergeSort fun x y => (compareBy ordering x y).isLE

/-- The first key decides, or leaves the decision to the keys behind it. -/
theorem precedes_cons_iff :
    Precedes (key :: ordering) x y ↔ key.Before x y ∨ key.Ties x y ∧ Precedes ordering x y := by
  constructor
  · intro precedes
    cases precedes with
    | here before => exact .inl before
    | behind tie rest => exact .inr ⟨tie, rest⟩
  · intro either
    rcases either with before | ⟨tie, rest⟩
    · exact .here before
    · exact .behind tie rest

section

variable {xs : List Record} (hx : x ∈ xs) (hy : y ∈ xs)
include hx hy

/-- In one key, less is before. A descending key compares the other way round, and so does
`Before`. -/
theorem compare_eq_lt_iff (sorts : key.Sorts xs) :
    key.direction.compare (key.valueIn x) (key.valueIn y) = .lt ↔ key.Before x y := by
  obtain ⟨kind, each⟩ := sorts
  unfold Before Direction.compare
  cases key.direction with
  | ascending => exact (Value.ordered (each x hx) (each y hy)).below
  | descending =>
    -- turned around, the comparison is that of the values in the other order
    have turned : ((key.valueIn x).compareAscending (key.valueIn y)).swap =
        (key.valueIn y).compareAscending (key.valueIn x) := by
      rw [SortKind.compareAscending_eq (each x hx) (each y hy),
        SortKind.compareAscending_eq (each y hy) (each x hx), ← Std.OrientedCmp.eq_swap]
    dsimp only
    rw [turned]
    exact (Value.ordered (each y hy) (each x hx)).below

/-- In one key, equal is a tie. -/
theorem compare_eq_eq_iff (sorts : key.Sorts xs) :
    key.direction.compare (key.valueIn x) (key.valueIn y) = .eq ↔ key.Ties x y := by
  obtain ⟨kind, each⟩ := sorts
  have shares := (Value.ordered (each x hx) (each y hy)).shares
  unfold Direction.compare
  cases key.direction with
  | ascending => exact shares
  | descending => exact Ordering.swap_eq_eq.trans shares

/-- In all keys, less is preceding. This is where the comparison of the sort and the order of the
values meet. -/
theorem compareBy_eq_lt_iff (sorts : ∀ key ∈ ordering, key.Sorts xs) :
    compareBy ordering x y = .lt ↔ Precedes ordering x y := by
  induction ordering with
  | nil => exact iff_of_false nofun nofun
  | cons key ordering ih =>
    obtain ⟨first, rest⟩ := List.forall_mem_cons.mp sorts
    rw [precedes_cons_iff, ← compare_eq_lt_iff hx hy first, ← compare_eq_eq_iff hx hy first,
      ← ih rest]
    exact Ordering.then_eq_lt

/-- In all keys, equal is a tie in each of them. -/
theorem compareBy_eq_eq_iff (sorts : ∀ key ∈ ordering, key.Sorts xs) :
    compareBy ordering x y = .eq ↔ TieInAll ordering x y := by
  induction ordering with
  | nil => exact iff_of_true rfl nofun
  | cons key ordering ih =>
    obtain ⟨first, rest⟩ := List.forall_mem_cons.mp sorts
    rw [TieInAll, List.forall_mem_cons, ← compare_eq_eq_iff hx hy first]
    exact Ordering.then_eq_eq.trans (and_congr_right' (ih rest))

/-- A record may stand in front of another one when it precedes it or ties with it. -/
theorem compareBy_isLE_iff (sorts : ∀ key ∈ ordering, key.Sorts xs) :
    (compareBy ordering x y).isLE ↔ Precedes ordering x y ∨ TieInAll ordering x y := by
  rw [Ordering.isLE_iff_eq_lt_or_eq_eq, compareBy_eq_lt_iff hx hy sorts,
    compareBy_eq_eq_iff hx hy sorts]

end

end OrderKey

/-! ## Sorting records -/

section

variable {xs : List Record} {ordering : List OrderKey}

/-- The value of a sort key can always be read. -/
theorem keyValue_eq (x : Record) (key : OrderKey) : keyValue x key = .ok (key.valueIn x) := rfl

/-- Reading the keys of records never fails: a path that leads nowhere gives null, and one that
leads to several values a list of them. -/
theorem mapM_keyedRow (ordering : List OrderKey) (xs : List Record) :
    (xs.map Row.record).mapM (keyedRow ordering) =
      .ok (xs.map fun x => (ordering.map (·.valueIn x), Row.record x)) := by
  have keyed : ∀ x, keyedRow ordering (.record x) =
      .ok (ordering.map (·.valueIn x), .record x) := by
    intro x
    rw [keyedRow, mapM_eq_ok_map fun key _ => keyValue_eq x key]
    rfl
  rw [List.mapM_map]
  exact mapM_eq_ok_map fun x _ => keyed x

variable (sorts : ∀ key ∈ ordering, key.Sorts xs)
include sorts

theorem exists_kinds : ∃ kinds, ordering.length = kinds.length ∧
    ∀ x ∈ xs, KeysSort kinds (ordering.map (·.valueIn x)) := by
  induction ordering with
  | nil => exact ⟨[], rfl, fun x _ => .nil⟩
  | cons key ordering ih =>
    obtain ⟨kind, hkind⟩ := sorts key List.mem_cons_self
    obtain ⟨kinds, length, hkinds⟩ := ih fun k hk => sorts k (List.mem_cons_of_mem _ hk)
    exact ⟨kind :: kinds, congrArg Nat.succ length, fun x hx => .cons (hkind x hx) (hkinds x hx)⟩

/-- Records whose keys can be sorted are sorted as by merge sort. -/
theorem sortByKeys_records :
    sortByKeys (ordering.map (·.direction))
        (xs.map fun x => (ordering.map (·.valueIn x), Row.record x)) =
      (OrderKey.sorted ordering xs).map .record := by
  obtain ⟨kinds, length, hkinds⟩ := exists_kinds sorts
  have each : ∀ row ∈ xs.map fun x => (ordering.map (·.valueIn x), Row.record x),
      KeysSort kinds row.1 := by
    intro row hrow
    obtain ⟨x, hx, rfl⟩ := List.mem_map.mp hrow
    exact hkinds x hx
  have sorted : (OrderKey.sorted ordering xs).map
        (fun x => (ordering.map (·.valueIn x), Row.record x)) =
      (xs.map fun x => (ordering.map (·.valueIn x), Row.record x)).mergeSort fun a b =>
        (compareKeys (ordering.map (·.direction)) a.1 b.1).isLE :=
    List.map_mergeSort fun _ _ _ _ => rfl
  -- the keys ride along with the records, and are dropped again behind the sort
  rw [sortByKeys_eq (by rw [List.length_map, length]) each, ← sorted, List.map_map]
  rfl

/-- On the records that are sorted, the comparison of their keys is one that can compare any two
records. -/
theorem exists_compareBy : ∃ cmp : Record → Record → Ordering, Std.TransCmp cmp ∧
    ∀ x ∈ xs, ∀ y ∈ xs, OrderKey.compareBy ordering x y = cmp x y := by
  obtain ⟨kinds, length, hkinds⟩ := exists_kinds sorts
  have directions : (ordering.map (·.direction)).length = kinds.length := by
    rwa [List.length_map]
  exact exists_transCmp directions hkinds

/-- One list alone holds given records as an ordering wants them. So stability leaves nothing open,
and any sort with these properties may take the place of the one that runs. -/
theorem OrderKey.arranges_iff {ys : List Record} :
    Arranges ordering xs ys ↔ ys = sorted ordering xs := by
  obtain ⟨cmp, transitive, agree⟩ := exists_compareBy sorts
  have le_iff : ∀ {x y}, x ∈ xs → y ∈ xs →
      ((compareBy ordering x y).isLE ↔ Precedes ordering x y ∨ TieInAll ordering x y) :=
    fun hx hy => compareBy_isLE_iff hx hy sorts
  constructor
  · intro arranges
    obtain ⟨perm, ordered, kept⟩ := arranges
    refine eq_mergeSort_of_kept cmp agree perm (ordered.imp_of_mem fun {x y} hx hy either => ?_)
      fun zs within tied => kept zs within (tied.imp_of_mem fun {x y} hx hy tie => ?_)
    · exact (le_iff (perm.subset hx) (perm.subset hy)).mpr either
    · exact (compareBy_eq_eq_iff (within.subset hx) (within.subset hy) sorts).mp tie
  · rintro rfl
    obtain ⟨inOrder, kept⟩ := mergeSort_of_transCmp cmp agree
    refine ⟨List.mergeSort_perm xs _, inOrder.imp_of_mem fun {x y} hx hy le => ?_,
      fun zs within ties => kept zs within (ties.imp_of_mem fun {x y} hx hy tie => ?_)⟩
    · exact (le_iff (List.mem_mergeSort.mp hx) (List.mem_mergeSort.mp hy)).mp le
    · exact (le_iff (within.subset hx) (within.subset hy)).mpr (.inr tie)

end

/-! ## What is delivered -/

namespace Executor

variable {e child : Executor} {store : Store} {rows : List Row}

/-- An executor opens and gives some rows, all of them and without a failure. -/
def Delivers (store : Store) (e : Executor) (rows : List Row) : Prop :=
  ∃ opened, e.init store = (opened, .ok ()) ∧ (opened.collect .ok).2 = .ok rows

/-- An open executor whose answers are rows gives these. -/
theorem collect_of_answers (ready : e.Ready) (h : e.answers = rows.map .ok) :
    (e.collect .ok).2 = .ok rows := by
  rw [collect_answers .ok ready, h, List.mapM_map]
  refine List.mapM_pure.trans ?_
  rw [List.map_id']
  rfl

/-- Rows that are given can be read one after the other. Reading can fail where giving does not, and
stops the collection there. -/
theorem collect_of_collect {α : Type} (read : Row → Except ExecutionError α)
    (h : (e.collect .ok).2 = .ok rows) : (e.collect read).2 = rows.mapM read := by
  fun_induction collect Except.ok e generalizing rows with
  | case1 e rest hn =>
    cases h
    rw [collect]
    split
    · rfl
    · next hn' => cases hn.symm.trans hn'
    · next hn' => cases hn.symm.trans hn'
  | case2 e rest error hn => cases h
  | case3 e rest row hn error hr => cases hr
  | case4 e rest row hn x hr left others hc ih =>
    cases hr
    obtain ⟨below, hbelow, rfl⟩ := map_eq_ok.mp h
    have behind := ih (by rw [hc]; exact hbelow)
    rw [collect, mapM_cons_eq]
    split
    · next hn' => cases hn.symm.trans hn'
    · next hn' => cases hn.symm.trans hn'
    · next hn' =>
      cases hn.symm.trans hn'
      cases read row with
      | error error => rfl
      | ok y =>
        rw [← behind]
        rfl

/-- A scan delivers the records of its entity, in the order in which they were inserted. -/
theorem delivers_scan (store : Store) (entity : String) (columns : List String) :
    Delivers store (scan entity columns) ((store.scan entity).map .record) :=
  ⟨_, rfl, collect_of_answers rfl (List.map_map).symm⟩

/-- A sort whose keys can be sorted delivers the records that are delivered to it: all of them, in
the order of the keys, and those that tie in all keys in the order in which they came. -/
theorem sort_delivers {xs : List Record} {ordering : List OrderKey}
    (below : child.Delivers store (xs.map .record))
    (sorts : ∀ key ∈ ordering, key.Sorts xs) :
    ∃ ys, (stage (.sort ordering) child).Delivers store (ys.map .record) ∧ ys.Perm xs ∧
      ys.Pairwise (fun x y => OrderKey.Precedes ordering x y ∨ OrderKey.TieInAll ordering x y) ∧
      ∀ zs : List Record, zs.Sublist xs → zs.Pairwise (OrderKey.TieInAll ordering) →
        zs.Sublist ys := by
  obtain ⟨opened, hinit, given⟩ := below
  have keyed := (collect_of_collect (keyedRow ordering) given).trans (mapM_keyedRow ordering xs)
  obtain ⟨perm, ordered, kept⟩ := (OrderKey.arranges_iff sorts).mpr rfl
  refine ⟨OrderKey.sorted ordering xs, ?_, perm, ordered, kept⟩
  cases collected : opened.collect (keyedRow ordering) with
  | mk left result =>
    rw [collected] at keyed
    cases keyed
    refine ⟨.sort ordering _ ⟨opened.columns, true⟩ left, ?_, collect_of_answers rfl rfl⟩
    rw [← sortByKeys_records sorts]
    simp only [stage, init, Opening.closed, Bool.false_eq_true, if_false, hinit, collected]

/-- Screws of which one has no size, and two are alike but for the width of their size. -/
def screwBox : List Record :=
  [Record.ofFields "Screw" [("name", .text "a"), ("size", Sample.int64 3)],
    Record.ofFields "Screw" [("name", .text "b")],
    Record.ofFields "Screw"
      [("name", .text "a"), ("size", .integer ⟨.w8, 3, by decide, by decide⟩)],
    Record.ofFields "Screw" [("name", .text "c"), ("size", Sample.int64 5)]]

/-- The longest screw first, and those of one length by name. -/
def byLengthAndName : List OrderKey :=
  [⟨(Path.root "Screw").property "size" .numeric, .descending⟩,
    ⟨(Path.root "Screw").property "name" .string, .ascending⟩]

/-- The screws that are alike stay as they were: two of them have one name and one size, though in
integers of two widths. The longest comes first, so the one without a size is the last. -/
theorem sort_delivers_screws :
    ∃ ys, (stage (.sort byLengthAndName) (scan "Screw" ["name"])).Delivers
        (Store.ofRecords screwBox) (ys.map .record) ∧ ys.Perm screwBox ∧
      ys.Pairwise (fun x y => OrderKey.Precedes byLengthAndName x y ∨
        OrderKey.TieInAll byLengthAndName x y) ∧
      ∀ zs : List Record, zs.Sublist screwBox → zs.Pairwise (OrderKey.TieInAll byLengthAndName) →
        zs.Sublist ys := by
  refine sort_delivers (delivers_scan (Store.ofRecords screwBox) "Screw" ["name"]) ?_
  refine List.forall_mem_cons.mpr ⟨⟨.integer, ?_⟩,
    List.forall_mem_singleton.mpr ⟨.text, ?_⟩⟩
  · exact List.forall_mem_cons.mpr ⟨.inr rfl, List.forall_mem_cons.mpr ⟨.inl rfl,
      List.forall_mem_cons.mpr ⟨.inr rfl, List.forall_mem_singleton.mpr (.inr rfl)⟩⟩⟩
  · exact List.forall_mem_cons.mpr ⟨.inr rfl, List.forall_mem_cons.mpr ⟨.inr rfl,
      List.forall_mem_cons.mpr ⟨.inr rfl, List.forall_mem_singleton.mpr (.inr rfl)⟩⟩⟩

end Executor

end EntityQuery
