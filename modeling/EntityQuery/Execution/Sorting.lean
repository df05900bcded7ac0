import EntityQuery.Request.Ordering
import EntityQuery.Value.Order

/-!
# Sorting rows

Rows are sorted by their keys, one value for each key of an ordering. The first key in which two
rows differ decides. Null comes below every other value; values that cannot be compared count as
equal.

Sorting inserts the rows one by one behind all that are not greater, so rows with equal keys stay
in the order in which they came.
-/

namespace EntityQuery

/-- The order of two values of a key, where null comes first. -/
def Value.compareAscending (a b : Value) : Ordering :=
  match a.isNull, b.isNull with
  | true, true => .eq
  | true, false => .lt
  | false, true => .gt
  | false, false => (a.compare b).getD .eq

/-- The order of two values of a key in its direction. -/
def Direction.compare (d : Direction) (a b : Value) : Ordering :=
  match d with
  | .ascending => a.compareAscending b
  | .descending => (a.compareAscending b).swap

/-- The order of two rows by the values of their keys. -/
def compareKeys : List Direction → List Value → List Value → Ordering
  | d :: ds, a :: as, b :: bs => (d.compare a b).then (compareKeys ds as bs)
  | _, _, _ => .eq

section

variable {α : Type}

/-- Inserts an item into a sorted list that is held in reverse: past the greater items. -/
def insertLast (less : α → α → Bool) (x : α) : List α → List α
  | [] => [x]
  | y :: ys => if less x y then y :: insertLast less x ys else x :: y :: ys

/-- Sorts a list; items of which neither is less than the other keep their order. -/
def stableSort (less : α → α → Bool) (xs : List α) : List α :=
  (xs.foldl (fun sorted x => insertLast less x sorted) []).reverse

end

/-- Sorts rows that come with the values of their keys. -/
def sortByKeys {α : Type} (directions : List Direction) (rows : List (List Value × α)) : List α :=
  (stableSort (fun a b => compareKeys directions a.1 b.1 = .lt) rows).map (·.2)

end EntityQuery
