import EntityQuery.Proofs.Execution.StableSort

/-!
# The order of rows by their keys

Values of one kind are ordered as the data that they hold, with null in front, and rows by their
keys from the first one on. As long as the values of each column are of one kind or null, this is an
order in which everything can be sorted: transitive, and defined between any two rows
(`compareColumns_transCmp`). So rows are then sorted as by merge sort (`sortByKeys_eq`).

Kinds have to agree, for values that cannot be compared count as equal, which is not transitive.
Numbers that are not integers have no kind here, since not-a-number counts as equal to all of them.
-/

namespace EntityQuery

/-- A kind of values that can be sorted. -/
inductive SortKind where
  | boolean
  | character
  /-- Integers of any width. -/
  | integer
  | text
  | moment
  | constant
  | list
  | record
  deriving DecidableEq

namespace Value

/-- The kind of a value, if it is one of those that can be sorted. -/
def sortKind? : Value → Option SortKind
  | .boolean _ => some .boolean
  | .character _ => some .character
  | .integer _ => some .integer
  | .text _ => some .text
  | .dateTime _ => some .moment
  | .constant _ => some .constant
  | .list _ => some .list
  | .record _ => some .record
  | .null | .floating .. => none

/-- A value may stand in a column of a kind: it is null or of that kind. -/
def SortsAs (kind : SortKind) (v : Value) : Prop := v = .null ∨ v.sortKind? = some kind

/-- Two values of one kind, with the data that they hold. -/
inductive Pair : SortKind → Value → Value → Prop
  | boolean (x y : Bool) : Pair .boolean (.boolean x) (.boolean y)
  | character (x y : Char) : Pair .character (.character x) (.character y)
  | integer (m n : SizedInt) : Pair .integer (.integer m) (.integer n)
  | text (s t : String) : Pair .text (.text s) (.text t)
  | dateTime (s t : DateTime) : Pair .moment (.dateTime s) (.dateTime t)
  | constant (s t : String) : Pair .constant (.constant s) (.constant t)
  | list (us vs : List Value) : Pair .list (.list us) (.list vs)
  | record (x y : Record) : Pair .record (.record x) (.record y)

/-- Values of one kind are built alike, so there are as many cases of two values as of one. -/
theorem pair_of_sortKind? {kind : SortKind} {a b : Value} (ha : a.sortKind? = some kind)
    (hb : b.sortKind? = some kind) : Pair kind a b := by
  cases a <;> cases ha <;> cases b <;> cases hb <;> constructor

def boolean? : Value → Option Bool
  | .boolean b => some b
  | _ => none

def codePoint? : Value → Option Nat
  | .character c => some c.toNat
  | _ => none

def moment? : Value → Option DateTime
  | .dateTime t => some t
  | _ => none

end Value

/-! ## Values of one kind -/

open Std (TransCmp TransOrd)

instance : Ord Date := ⟨Date.compare⟩

instance : TransOrd Date :=
  inferInstanceAs (TransCmp (compareLex (compareOn Date.year)
    (compareLex (compareOn Date.month) (compareOn Date.day))))

instance : Ord Time := ⟨Time.compare⟩

instance : TransOrd Time :=
  inferInstanceAs (TransCmp (compareLex (compareOn Time.hour) (compareLex (compareOn Time.minute)
    (compareLex (compareOn Time.second) (compareOn Time.nanosecond)))))

instance : Ord DateTime := ⟨DateTime.compare⟩

instance : TransOrd DateTime :=
  inferInstanceAs (TransCmp (compareLex (compareOn DateTime.date) (compareOn DateTime.time)))

namespace SortKind

/-- The order of values of a kind, null first. -/
def compare : SortKind → Value → Value → Ordering
  | .boolean => compareOn Value.boolean?
  | .character => compareOn Value.codePoint?
  | .integer => compareOn Value.toInt?
  | .text | .constant => compareOn Value.toText?
  | .moment => compareOn Value.moment?
  | .list | .record => compareOn fun v => !v.isNull

instance (kind : SortKind) : TransCmp kind.compare := by
  cases kind <;> unfold compare <;> infer_instance

/-- Truth values are ordered as by the core library. -/
theorem compareBool_eq (a b : Bool) : Value.compareBool a b = Ord.compare a b := by
  cases a <;> cases b <;> rfl

/-- Texts are ordered by code points, as by the core library. -/
theorem compareText_eq (a b : String) : Value.compareText a b = Ord.compare a b := rfl

/-- Among values of a kind, the order of the kind is the one that keys are sorted by. -/
theorem compareAscending_of_kind {kind : SortKind} {a b : Value} (ha : a.sortKind? = some kind)
    (hb : b.sortKind? = some kind) : a.compareAscending b = kind.compare a b := by
  cases Value.pair_of_sortKind? ha hb with
  | boolean x y => exact compareBool_eq x y
  | text s t | constant s t => exact compareText_eq s t
  | character | integer | dateTime | list | record => rfl

/-- Null comes in front of the values of a kind, and is equal to itself. -/
theorem compareAscending_eq {kind : SortKind} {a b : Value} (ha : a.SortsAs kind)
    (hb : b.SortsAs kind) : a.compareAscending b = kind.compare a b := by
  rcases ha with rfl | ha
  · rcases hb with rfl | hb
    · cases kind <;> rfl
    · cases b <;> cases hb <;> rfl
  · rcases hb with rfl | hb
    · cases a <;> cases ha <;> rfl
    · exact compareAscending_of_kind ha hb

end SortKind

/-! ## Rows -/

/-- The order of two values of a column of a kind. -/
def Direction.compareAs (d : Direction) (kind : SortKind) (a b : Value) : Ordering :=
  match d with
  | .ascending => kind.compare a b
  | .descending => kind.compare b a

instance (d : Direction) (kind : SortKind) : TransCmp (d.compareAs kind) := by
  cases d with
  | ascending => exact inferInstanceAs (TransCmp kind.compare)
  | descending => exact inferInstanceAs (TransCmp fun a b => kind.compare b a)

/-- In a column of one kind a key is compared as the data of this kind, in the direction of the
column. -/
theorem Direction.compare_eq (d : Direction) {kind : SortKind} {a b : Value}
    (ha : a.SortsAs kind) (hb : b.SortsAs kind) : d.compare a b = d.compareAs kind a b := by
  cases d with
  | ascending => exact SortKind.compareAscending_eq ha hb
  | descending =>
    rw [Direction.compare, SortKind.compareAscending_eq ha hb, ← Std.OrientedCmp.eq_swap]
    rfl

/-- The keys of a row are of the kinds of their columns. -/
abbrev KeysSort (kinds : List SortKind) (keys : List Value) : Prop :=
  List.Forall₂ (fun kind v => v.SortsAs kind) kinds keys

/-- The order of the keys of two rows, column by column; keys that are missing count as null. -/
def compareColumns : List (Direction × SortKind) → List Value → List Value → Ordering
  | [], _, _ => .eq
  | (d, kind) :: columns, as, bs =>
    (d.compareAs kind (as.headD .null) (bs.headD .null)).then
      (compareColumns columns as.tail bs.tail)

/-- The lexicographic order of such columns compares any two rows and is transitive. -/
theorem compareColumns_transCmp (columns : List (Direction × SortKind)) :
    TransCmp (compareColumns columns) := by
  induction columns with
  | nil => exact { eq_swap := rfl, isLE_trans := fun _ _ => rfl }
  | cons column columns ih =>
    obtain ⟨d, kind⟩ := column
    have first : TransCmp fun as bs : List Value =>
        d.compareAs kind (as.headD .null) (bs.headD .null) :=
      { eq_swap := Std.OrientedCmp.eq_swap, isLE_trans := TransCmp.isLE_trans }
    have rest : TransCmp fun as bs : List Value => compareColumns columns as.tail bs.tail :=
      { eq_swap := Std.OrientedCmp.eq_swap, isLE_trans := TransCmp.isLE_trans }
    exact inferInstanceAs (TransCmp (compareLex _ _))

/-- Rows whose keys are of the kinds of the columns are compared column by column. -/
theorem compareKeys_eq {directions : List Direction} {kinds : List SortKind} {as bs : List Value}
    (length : directions.length = kinds.length) (ha : KeysSort kinds as) (hb : KeysSort kinds bs) :
    compareKeys directions as bs = compareColumns (directions.zip kinds) as bs := by
  induction ha generalizing directions bs with
  | nil =>
    cases directions with
    | nil => rfl
    | cons d ds => cases length
  | cons ha _ ih =>
    cases directions with
    | nil => cases length
    | cons d ds =>
      cases hb with
      | cons hb hbs =>
        rw [compareKeys, d.compare_eq ha hb, ih (Nat.succ.inj length) hbs]
        rfl

/-- Rows whose keys are of the kinds of the columns can be compared any two of them. -/
theorem exists_transCmp {α : Type} {directions : List Direction} {kinds : List SortKind}
    (length : directions.length = kinds.length) {xs : List α} {keys : α → List Value}
    (each : ∀ x ∈ xs, KeysSort kinds (keys x)) :
    ∃ cmp : α → α → Ordering, TransCmp cmp ∧
      ∀ a ∈ xs, ∀ b ∈ xs, compareKeys directions (keys a) (keys b) = cmp a b := by
  have columns := compareColumns_transCmp (directions.zip kinds)
  refine ⟨fun a b => compareColumns (directions.zip kinds) (keys a) (keys b), ?_, ?_⟩
  · exact { eq_swap := columns.eq_swap, isLE_trans := columns.isLE_trans }
  · exact fun a ha b hb => compareKeys_eq length (each a ha) (each b hb)

/-- Rows whose keys are of one kind column by column are sorted as by merge sort. -/
theorem sortByKeys_eq {α : Type} {directions : List Direction} {kinds : List SortKind}
    (length : directions.length = kinds.length) {rows : List (List Value × α)}
    (each : ∀ row ∈ rows, KeysSort kinds row.1) :
    sortByKeys directions rows =
      (rows.mergeSort fun a b => (compareKeys directions a.1 b.1).isLE).map (·.2) := by
  obtain ⟨cmp, ordered, agree⟩ := exists_transCmp length each
  have inserted : stableSort (fun a b => compareKeys directions a.1 b.1 = .lt) rows =
      stableSort (fun a b => cmp a b = .lt) rows :=
    stableSort_congr fun a ha b hb => by rw [agree a ha b hb]
  have merged : (rows.mergeSort fun a b => (compareKeys directions a.1 b.1).isLE) =
      rows.mergeSort fun a b => (cmp a b).isLE :=
    mergeSort_congr fun a ha b hb => congrArg Ordering.isLE (agree a ha b hb)
  rw [sortByKeys, inserted, merged, stableSort_of_transCmp cmp]

end EntityQuery
