import EntityQuery.Proofs.Value.Order
import Mathlib.Data.Set.Basic

/-!
# When keys are in one order

Rows are compared by the first key in which they differ. Whatever the keys hold, swapping two rows
swaps the outcome. But values that cannot be compared count as equal, and so does a floating-point
number with the integers that are rounded to it. Such a value hides that one of two others is
greater: of three rows, none greater than the next, the first may then be greater than the last.

The values that a key can take are coherent if none of them hides two others from each other. "Not
greater" is transitive for exactly those orderings whose keys all take coherent values
(`compareKeys_preorder_iff`). Values of one scale are coherent unless integers and floating-point
numbers meet in it (`KeyColumn.coherent_of_scale`).
-/

namespace EntityQuery

open Std (TransCmp)

/-- A key of an ordering with the values that it can take. -/
structure KeyColumn where
  direction : Direction
  values : Set Value
  nonempty : values.Nonempty

/-- The keys of a row take values of their columns. -/
abbrev KeysFrom (columns : List KeyColumn) (keys : List Value) : Prop :=
  List.Forall₂ (fun c v => v ∈ c.values) columns keys

/-- Comparing two values the other way round gives the reverse, in either direction. -/
theorem Direction.compare_swap (d : Direction) (a b : Value) :
    d.compare b a = (d.compare a b).swap := by
  cases d with
  | ascending => exact Value.compareAscending_swap a b
  | descending => exact congrArg Ordering.swap (Value.compareAscending_swap a b)

/-- So does comparing two lists of keys. This half of an order holds for all values, numbers and
kinds that cannot be compared included. -/
theorem compareKeys_swap (directions : List Direction) (as bs : List Value) :
    compareKeys directions bs as = (compareKeys directions as bs).swap := by
  induction directions generalizing as bs with
  | nil => rfl
  | cons d ds ih =>
    cases as with
    | nil => cases bs <;> rfl
    | cons a as =>
      cases bs with
      | nil => rfl
      | cons b bs => rw [compareKeys, compareKeys, Ordering.swap_then, d.compare_swap a b, ih]

theorem Direction.compare_self (d : Direction) (v : Value) : d.compare v v = .eq := by
  have swap := d.compare_swap v v
  cases h : d.compare v v with
  | eq => rfl
  | lt | gt =>
    rw [h] at swap
    cases swap

/-- No list of keys comes before itself. -/
theorem compareKeys_self (directions : List Direction) (as : List Value) :
    compareKeys directions as as = .eq := by
  induction directions generalizing as with
  | nil => rfl
  | cons d ds ih =>
    cases as with
    | nil => rfl
    | cons a as => rw [compareKeys, d.compare_self, ih, Ordering.then_eq]

namespace KeyColumn

variable {c : KeyColumn} {columns : List KeyColumn} {x y z : Value}

/-- The directions of the keys. -/
abbrev directions (columns : List KeyColumn) : List Direction := columns.map KeyColumn.direction

/-- No value hides that one of two others is greater. -/
def Coherent (c : KeyColumn) : Prop :=
  ∀ a ∈ c.values, ∀ b ∈ c.values, a.compare b = some .gt → ∀ v ∈ c.values, ¬v.Hides a b

/-- Values of one scale, and nulls among them, are coherent unless integers meet other numbers. -/
theorem coherent_of_scale {kind : SortKind}
    (each : ∀ v ∈ c.values, v = .null ∨ v.scale? = some kind)
    (apart : (∀ v ∈ c.values, v.toInt? = none) ∨ ∀ v ∈ c.values, ∀ p x, v ≠ .floating p x) :
    c.Coherent := by
  intro a ha b _ greater v hv hides
  obtain ⟨kind', scale, -⟩ := Value.exists_scale (Option.isSome_of_eq_some greater)
  have same : a.scale? = some kind := (each a ha).resolve_left (Value.ne_null_of_scale scale)
  cases hides with
  | unrelated value unrelated =>
    have comparable := Value.compare_isSome_iff.mpr ⟨kind, same, (each v hv).resolve_left value⟩
    rw [unrelated] at comparable
    cases comparable
  | rounded floating integer =>
    obtain none | none := apart
    · have := none a ha
      rw [integer] at this
      cases this
    · exact none v hv _ _ floating

/-! ## From coherent columns to one order -/

/-- Null is in front of all other values, so that nothing is hidden by it. -/
theorem Coherent.ascending_trans (coherent : c.Coherent) (hx : x ∈ c.values) (hy : y ∈ c.values)
    (hz : z ∈ c.values) (first : x.compareAscending y ≠ .gt) (second : y.compareAscending z ≠ .gt) :
    x.compareAscending z ≠ .gt := by
  have front (v : Value) : Value.null.compareAscending v ≠ .gt := by
    cases v <;> nofun
  have behind {v : Value} (value : v ≠ .null) : v.compareAscending .null = .gt := by
    cases v with
    | null => exact absurd rfl value
    | _ => rfl
  have decides (o : Option Ordering) : o.getD .eq ≠ .gt ↔ o ≠ some .gt := by
    cases o <;> simp
  by_cases nullX : x = .null
  · rw [nullX]
    exact front z
  · have valueY : y ≠ .null := fun null => first (null ▸ behind nullX)
    have valueZ : z ≠ .null := fun null => second (null ▸ behind valueY)
    rw [Value.compareAscending_of_values nullX valueY, decides] at first
    rw [Value.compareAscending_of_values valueY valueZ, decides] at second
    rw [Value.compareAscending_of_values nullX valueZ, decides]
    intro greater
    have unhidden := coherent x hx z hz greater y hy
    exact Value.compare_trans valueY first second unhidden greater

/-- Coherent values are in one order. -/
theorem Coherent.transCmp (coherent : c.Coherent) :
    TransCmp fun a b : c.values => c.direction.compare a b := by
  obtain ⟨d, values, nonempty⟩ := c
  refine { eq_swap := d.compare_swap _ _, isLE_trans := fun {x y z} first second => ?_ }
  rw [Ordering.isLE_iff_ne_gt] at first second ⊢
  cases d with
  | ascending => exact coherent.ascending_trans x.2 y.2 z.2 first second
  | descending =>
    simp only [Direction.compare, ← Value.compareAscending_swap] at first second ⊢
    exact coherent.ascending_trans z.2 y.2 x.2 second first

/-- The first key in which rows differ is in one order, and so are the rows. -/
theorem compareKeys_trans (coherent : ∀ c ∈ columns, c.Coherent) {as bs cs : List Value}
    (ha : KeysFrom columns as) (hb : KeysFrom columns bs) (hc : KeysFrom columns cs)
    (first : (compareKeys (directions columns) as bs).isLE)
    (second : (compareKeys (directions columns) bs cs).isLE) :
    (compareKeys (directions columns) as cs).isLE := by
  induction columns generalizing as bs cs with
  | nil => rfl
  | cons c columns ih =>
    obtain ⟨a, as, hx, has, rfl⟩ := List.forall₂_cons_left_iff.mp ha
    obtain ⟨b, bs, hy, hbs, rfl⟩ := List.forall₂_cons_left_iff.mp hb
    obtain ⟨z, cs, hz, hcs, rfl⟩ := List.forall₂_cons_left_iff.mp hc
    rw [List.forall_mem_cons] at coherent
    have order := coherent.1.transCmp
    let a' : c.values := ⟨a, hx⟩
    let b' : c.values := ⟨b, hy⟩
    let z' : c.values := ⟨z, hz⟩
    simp only [directions, List.map_cons, compareKeys, Ordering.isLE_then_iff_or] at first second ⊢
    -- the first column decides, or both pairs tie in it and the other columns do
    obtain less | ⟨same, first⟩ := first
    · have rest : (c.direction.compare b z).isLE := by
        obtain less | ⟨same, -⟩ := second
        · rw [less]
          rfl
        · rw [same]
          rfl
      exact .inl (order.lt_of_lt_of_isLE (a := a') (b := b') (c := z') less rest)
    · obtain less | ⟨same', second⟩ := second
      · exact .inl (order.lt_of_eq_of_lt (a := a') (b := b') (c := z') same less)
      · have equal := order.eq_trans (a := a') (b := b') (c := z') same same'
        exact .inr ⟨equal, ih coherent.2 has hbs hcs first second⟩

/-! ## From one order to coherent columns -/

/-- Columns with a value each have a list of keys, which the other columns of a counterexample are
filled up with. -/
theorem exists_keys (columns : List KeyColumn) : ∃ keys, KeysFrom columns keys := by
  induction columns with
  | nil => exact ⟨[], .nil⟩
  | cons c columns ih =>
    obtain ⟨v, hv⟩ := c.nonempty
    obtain ⟨keys, h⟩ := ih
    exact ⟨v :: keys, .cons hv h⟩

/-- The values of one key can be extended to rows that differ in that key only. -/
theorem exists_rows (h : c ∈ columns) :
    ∃ row : Value → List Value, (∀ v ∈ c.values, KeysFrom columns (row v)) ∧
      ∀ a b, compareKeys (directions columns) (row a) (row b) = c.direction.compare a b := by
  induction columns with
  | nil => cases h
  | cons first columns ih =>
    rw [directions, List.map_cons]
    obtain rfl | h := List.mem_cons.mp h
    · obtain ⟨rest, hrest⟩ := exists_keys columns
      refine ⟨fun v => v :: rest, fun v hv => .cons hv hrest, fun a b => ?_⟩
      rw [compareKeys, compareKeys_self]
      cases c.direction.compare a b <;> rfl
    · obtain ⟨row, each, compared⟩ := ih h
      obtain ⟨v, hv⟩ := first.nonempty
      refine ⟨fun x => v :: row x, fun x hx => .cons hv (each x hx), fun a b => ?_⟩
      rw [compareKeys, first.direction.compare_self, compared]
      rfl

/-- A value that hides two others from each other breaks the order of a key. -/
theorem Coherent.of_transitive (transitive : ∀ x ∈ c.values, ∀ y ∈ c.values, ∀ z ∈ c.values,
    c.direction.compare x y ≠ .gt → c.direction.compare y z ≠ .gt →
      c.direction.compare x z ≠ .gt) : c.Coherent := by
  intro a ha b hb greater v hv hides
  obtain ⟨first, second⟩ := hides.eq (Option.isSome_of_eq_some greater)
  obtain ⟨kind, hka, hkb⟩ := Value.exists_scale (Option.isSome_of_eq_some greater)
  have ascending : a.compareAscending b = .gt := by
    rw [Value.compareAscending_of_values (Value.ne_null_of_scale hka)
      (Value.ne_null_of_scale hkb), greater]
    rfl
  unfold Direction.compare at transitive
  cases h : c.direction with
  | ascending =>
    rw [h] at transitive
    exact transitive a ha v hv b hb (first ▸ nofun) (second ▸ nofun) ascending
  | descending =>
    rw [h] at transitive
    refine transitive b hb v hv a ha ?_ ?_ ?_
    · rw [← Value.compareAscending_swap, second]
      nofun
    · rw [← Value.compareAscending_swap, first]
      nofun
    · rw [← Value.compareAscending_swap, ascending]

end KeyColumn

/-- Swapping two rows swaps the outcome of their comparison, and "not greater" is transitive exactly
if all keys take coherent values. -/
theorem compareKeys_preorder_iff (columns : List KeyColumn) :
    (∀ directions as bs, compareKeys directions bs as = (compareKeys directions as bs).swap) ∧
    ((∀ as bs cs, KeysFrom columns as → KeysFrom columns bs → KeysFrom columns cs →
      compareKeys (KeyColumn.directions columns) as bs ≠ .gt →
      compareKeys (KeyColumn.directions columns) bs cs ≠ .gt →
      compareKeys (KeyColumn.directions columns) as cs ≠ .gt) ↔
      ∀ c ∈ columns, c.Coherent) := by
  refine ⟨compareKeys_swap, fun transitive c hc => ?_, fun coherent as bs cs ha hb hc => ?_⟩
  · obtain ⟨row, each, compared⟩ := KeyColumn.exists_rows hc
    refine .of_transitive fun x hx y hy z hz => ?_
    rw [← compared, ← compared, ← compared]
    exact transitive _ _ _ (each x hx) (each y hy) (each z hz)
  · simp only [ne_eq, ← Ordering.isLE_iff_ne_gt]
    exact KeyColumn.compareKeys_trans coherent ha hb hc

/-- A text counts as equal to both truth values, though one of them is greater. -/
theorem compareKeys_not_transitive :
    let compare := compareKeys [.ascending]
    compare [.boolean true] [.text "a"] ≠ .gt ∧ compare [.text "a"] [.boolean false] ≠ .gt ∧
      compare [.boolean true] [.boolean false] = .gt := by
  decide

end EntityQuery
