import EntityQuery.Value.Basic

/-!
# Comparing values

Two relations on values. `compare` is the order that comparisons of a query use: it is defined
between values of one kind and between any two numbers, and never for null. `identical` tells
values apart as data: the kinds have to agree, a null is itself, and not-a-number is not.
-/

namespace EntityQuery.Value

/-- The order of two truth values, false first. -/
def compareBool : Bool → Bool → Ordering
  | false, true => .lt
  | true, false => .gt
  | _, _ => .eq

/-- The order of two texts by code point. -/
def compareText (a b : String) : Ordering :=
  if a < b then .lt else if a = b then .eq else .gt

theorem compareText_eq_lt_iff {a b : String} : compareText a b = .lt ↔ a < b := by
  unfold compareText
  split
  · next less => exact iff_of_true rfl less
  · next other => exact iff_of_false (by split <;> nofun) other

theorem compareText_eq_eq_iff {a b : String} : compareText a b = .eq ↔ a = b := by
  unfold compareText
  split
  · next less => exact iff_of_false nofun fun same => String.lt_irrefl b (same ▸ less)
  · split
    · next same => exact iff_of_true rfl same
    · next other => exact iff_of_false nofun other

/-- The order of two numbers: as integers if both are, else at double precision. -/
def compareNumbers (a b : Value) : Option Ordering :=
  match a.toInt?, b.toInt? with
  | some m, some n => some (Ord.compare m n)
  | _, _ =>
    match a.toDouble?, b.toDouble? with
    | some x, some y => x.compare y
    | _, _ => none

/-- The order of two values, if they can be compared. -/
def compare : Value → Value → Option Ordering
  | .boolean a, .boolean b => some (compareBool a b)
  | .character a, .character b => some (Ord.compare a.toNat b.toNat)
  | .text a, .text b => some (compareText a b)
  | .constant a, .constant b => some (compareText a b)
  | .dateTime a, .dateTime b => some (a.compare b)
  | a, b => compareNumbers a b

mutual

/-- Whether two values are the same data. -/
def identical : Value → Value → Bool
  | .null, .null => true
  | .boolean a, .boolean b => a = b
  | .character a, .character b => a = b
  | .integer a, .integer b => a = b
  | .floating p x, .floating q y => p = q && x.compare y = some .eq
  | .text a, .text b => a = b
  | .dateTime a, .dateTime b => a = b
  | .constant a, .constant b => a = b
  | .list a, .list b => identicalItems a b
  | .record a, .record b => identicalRecords a b
  | _, _ => false

/-- Whether two lists hold the same values in order. -/
def identicalItems : List Value → List Value → Bool
  | [], [] => true
  | a :: as, b :: bs => identical a b && identicalItems as bs
  | _, _ => false

/-- Whether two records have the same type and the same fields. -/
def identicalRecords : Record → Record → Bool
  | ⟨s, as⟩, ⟨t, bs⟩ => s = t && identicalFields as bs

/-- Whether two lists of fields hold the same names and values in order. -/
def identicalFields : List (String × Value) → List (String × Value) → Bool
  | [], [] => true
  | (m, a) :: as, (n, b) :: bs => m = n && identical a b && identicalFields as bs
  | _, _ => false

end

end EntityQuery.Value
