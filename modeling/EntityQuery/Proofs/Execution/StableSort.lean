import EntityQuery.Execution.Sorting
import Mathlib.Data.List.Induction

/-!
# Stable sorting

A list is sorted stably when its items come in order, and those that count as equal in the order in
which they came (`SortsStably`). There is one such list only (`SortsStably.unique`), so the
insertion of one row after the other gives what the merge sort of the core library does
(`stableSort_eq_mergeSort`).

The order is a Boolean relation that is transitive and total. It need not tell items apart.
-/

namespace EntityQuery

variable {α : Type} {le : α → α → Bool}

/-- Whether two items count as equal. -/
def ties (le : α → α → Bool) (a b : α) : Bool := le a b && le b a

/-- A list is the stably sorted form of another: its items are in order, and of those that tie with
an item it has the same, in the same order. -/
structure SortsStably (le : α → α → Bool) (xs ys : List α) : Prop where
  sorted : ys.Pairwise fun a b => le a b
  classes : ∀ a, ys.filter (ties le a) = xs.filter (ties le a)

theorem le_refl_of_total (total : ∀ a b, le a b || le b a) (a : α) : le a a := by
  have either := total a a
  rwa [Bool.or_self] at either

theorem ties_refl (total : ∀ a b, le a b || le b a) (a : α) : ties le a a := by
  rw [ties, le_refl_of_total total a]
  rfl

/-- Two lists in order that agree in every class of ties have the same head. -/
theorem eq_of_heads (total : ∀ a b, le a b || le b a) {a b : α} {as bs : List α}
    (ha : (a :: as).Pairwise fun a b => le a b) (hb : (b :: bs).Pairwise fun a b => le a b)
    (classes : ∀ x, (a :: as).filter (ties le x) = (b :: bs).filter (ties le x)) : a = b := by
  have mem_right : a ∈ b :: bs := by
    have found : a ∈ (a :: as).filter (ties le a) :=
      List.mem_filter.mpr ⟨List.mem_cons_self, ties_refl total a⟩
    rw [classes] at found
    exact (List.mem_filter.mp found).1
  have mem_left : b ∈ a :: as := by
    have found : b ∈ (b :: bs).filter (ties le b) :=
      List.mem_filter.mpr ⟨List.mem_cons_self, ties_refl total b⟩
    rw [← classes] at found
    exact (List.mem_filter.mp found).1
  have least : ∀ {c d : α} {ds : List α}, (d :: ds).Pairwise (fun a b => le a b) → c ∈ d :: ds →
      le d c := by
    intro c d ds hd hc
    rcases List.mem_cons.mp hc with rfl | hc
    · exact le_refl_of_total total c
    · exact (List.pairwise_cons.mp hd).1 c hc
  have tie : ties le a b := by
    rw [ties, least ha mem_left, least hb mem_right]
    rfl
  have first := classes a
  rw [List.filter_cons_of_pos (ties_refl total a), List.filter_cons_of_pos tie] at first
  exact (List.cons.inj first).1

/-- Two lists in order that agree in every class of ties are equal. Their heads tie, since each is
first in its list, and the class of the heads has the same first element in both. -/
theorem eq_of_classes (total : ∀ a b, le a b || le b a) {ys zs : List α}
    (hy : ys.Pairwise fun a b => le a b) (hz : zs.Pairwise fun a b => le a b)
    (classes : ∀ x, ys.filter (ties le x) = zs.filter (ties le x)) : ys = zs := by
  induction ys generalizing zs with
  | nil =>
    cases zs with
    | nil => rfl
    | cons z zs =>
      have none := classes z
      rw [List.filter_cons_of_pos (ties_refl total z)] at none
      cases none
  | cons y ys ih =>
    cases zs with
    | nil =>
      have none := classes y
      rw [List.filter_cons_of_pos (ties_refl total y)] at none
      cases none
    | cons z zs =>
      cases eq_of_heads total hy hz classes
      -- equal heads can be dropped from the elements that tie with any x
      refine congrArg (y :: ·) (ih hy.of_cons hz.of_cons fun x => ?_)
      have both := classes x
      cases tie : ties le x y with
      | true =>
        rw [List.filter_cons_of_pos tie, List.filter_cons_of_pos tie] at both
        exact (List.cons.inj both).2
      | false =>
        rw [List.filter_cons_of_neg (by rw [tie]; exact Bool.false_ne_true),
          List.filter_cons_of_neg (by rw [tie]; exact Bool.false_ne_true)] at both
        exact both

/-- There is one stably sorted form of a list. The items that tie may differ, and it is their order
that makes it unique. -/
theorem SortsStably.unique (total : ∀ a b, le a b || le b a) {xs ys zs : List α}
    (hy : SortsStably le xs ys) (hz : SortsStably le xs zs) : ys = zs :=
  eq_of_classes total hy.sorted hz.sorted fun a => (hy.classes a).trans (hz.classes a).symm

/-- A list in order that keeps whatever ties as it came is the stably sorted form: a class of ties
is such a part of the list that was sorted. -/
theorem SortsStably.of_kept (trans : ∀ a b c, le a b → le b c → le a c) {xs ys : List α}
    (perm : ys.Perm xs) (sorted : ys.Pairwise fun a b => le a b)
    (kept : ∀ zs : List α, zs.Sublist xs → zs.Pairwise (fun a b => ties le a b) → zs.Sublist ys) :
    SortsStably le xs ys := by
  refine ⟨sorted, fun a => ?_⟩
  have tied : (xs.filter (ties le a)).Pairwise fun b c => ties le b c := by
    refine List.pairwise_iff_forall_sublist.mpr fun {b c} hbc => ?_
    have hb := (List.mem_filter.mp (hbc.subset List.mem_cons_self)).2
    have hc := (List.mem_filter.mp (hbc.subset (List.mem_cons_of_mem _ List.mem_cons_self))).2
    rw [ties, Bool.and_eq_true] at hb hc ⊢
    exact ⟨trans b a c hb.2 hc.1, trans c a b hc.2 hb.1⟩
  have within := (kept _ List.filter_sublist tied).filter (ties le a)
  simp only [List.filter_filter, Bool.and_self] at within
  exact (within.eq_of_length (perm.filter (ties le a)).length_eq.symm).symm

section

variable (trans : ∀ a b c, le a b → le b c → le a c) (total : ∀ a b, le a b || le b a)
include trans total

/-- Merge sort sorts stably. -/
theorem sortsStably_mergeSort (xs : List α) : SortsStably le xs (xs.mergeSort le) := by
  refine .of_kept trans (List.mergeSort_perm xs le) (List.pairwise_mergeSort trans total xs) ?_
  intro zs within tied
  refine List.sublist_mergeSort trans total (tied.imp fun {a b} tie => ?_) within
  rw [ties, Bool.and_eq_true] at tie
  exact tie.1

end

section Insertion

variable {less : α → α → Bool}

theorem mem_insertLast {x z : α} {ys : List α} : z ∈ insertLast less x ys ↔ z = x ∨ z ∈ ys := by
  induction ys with
  | nil => exact List.mem_cons
  | cons y ys ih =>
    rw [insertLast]
    split
    · rw [List.mem_cons, ih, List.mem_cons, or_left_comm]
    · rw [List.mem_cons]

theorem mem_foldl_insertLast {z : α} {xs : List α} :
    z ∈ xs.foldl (fun sorted x => insertLast less x sorted) [] ↔ z ∈ xs := by
  induction xs using List.reverseRecOn with
  | nil => exact Iff.rfl
  | append_singleton xs x ih =>
    rw [List.foldl_append, List.mem_append, List.mem_singleton, or_comm, ← ih]
    exact mem_insertLast

theorem length_insertLast (x : α) (ys : List α) :
    (insertLast less x ys).length = ys.length + 1 := by
  induction ys with
  | nil => rfl
  | cons y ys ih =>
    rw [insertLast]
    split
    · rw [List.length_cons, ih, List.length_cons]
    · rfl

/-- Sorting loses no item and adds none. -/
theorem length_stableSort (xs : List α) : (stableSort less xs).length = xs.length := by
  rw [stableSort, List.length_reverse]
  induction xs using List.reverseRecOn with
  | nil => rfl
  | append_singleton xs x ih =>
    rw [List.foldl_append, List.length_append, ← ih]
    exact length_insertLast x _

/-- An insertion depends on how the new item compares with those that are there. -/
theorem insertLast_congr {less' : α → α → Bool} {x : α} {ys : List α}
    (same : ∀ y ∈ ys, less x y = less' x y) : insertLast less x ys = insertLast less' x ys := by
  induction ys with
  | nil => rfl
  | cons y ys ih =>
    rw [insertLast, insertLast, same y List.mem_cons_self,
      ih fun z hz => same z (List.mem_cons_of_mem _ hz)]

/-- Sorting depends on how the items of the list compare and on nothing else. -/
theorem stableSort_congr {less' : α → α → Bool} {xs : List α}
    (same : ∀ a ∈ xs, ∀ b ∈ xs, less a b = less' a b) :
    stableSort less xs = stableSort less' xs := by
  refine congrArg List.reverse ?_
  induction xs using List.reverseRecOn with
  | nil => rfl
  | append_singleton xs x ih =>
    have within : ∀ a ∈ xs, a ∈ xs ++ [x] := fun a ha => List.mem_append_left _ ha
    rw [List.foldl_append, List.foldl_append,
      ih fun a ha b hb => same a (within a ha) b (within b hb)]
    exact insertLast_congr fun y hy =>
      same x (List.mem_append_right _ (List.mem_singleton_self x)) y
        (within y (mem_foldl_insertLast.mp hy))

variable (trans : ∀ a b c, le a b → le b c → le a c) (total : ∀ a b, le a b || le b a)
  (strict : ∀ a b, less a b = !le b a)
include strict

/-- Among the items that tie with one, a new item comes to stand in front. -/
theorem filter_insertLast (trans : ∀ a b c, le a b → le b c → le a c) (a x : α) (ys : List α) :
    (insertLast less x ys).filter (ties le a) = (x :: ys).filter (ties le a) := by
  induction ys with
  | nil => rfl
  | cons y ys ih =>
    rw [insertLast]
    split
    · next before =>
      rw [List.filter_cons, ih]
      cases hx : ties le a x with
      | false =>
        have out : ¬ties le a x = true := by rw [hx]; exact Bool.false_ne_true
        rw [List.filter_cons_of_neg out, List.filter_cons_of_neg out, List.filter_cons]
      | true =>
        -- what ties with `x` cannot be greater than it
        cases hy : ties le a y with
        | false =>
          have out : ¬ties le a y = true := by rw [hy]; exact Bool.false_ne_true
          rw [if_neg Bool.false_ne_true, List.filter_cons_of_pos hx, List.filter_cons_of_pos hx,
            List.filter_cons_of_neg out]
        | true =>
          rw [ties, Bool.and_eq_true] at hx hy
          rw [strict, trans y a x hy.2 hx.1] at before
          cases before
    · rfl

include trans total

/-- An item that is inserted in a list in order leaves it in order. -/
theorem pairwise_insertLast (x : α) {ys : List α} (h : ys.Pairwise fun a b => le b a) :
    (insertLast less x ys).Pairwise fun a b => le b a := by
  induction ys with
  | nil => exact List.pairwise_singleton _ x
  | cons y ys ih =>
    obtain ⟨below, rest⟩ := List.pairwise_cons.mp h
    rw [insertLast]
    split
    · next before =>
      refine List.pairwise_cons.mpr ⟨fun z hz => ?_, ih rest⟩
      rcases mem_insertLast.mp hz with rfl | hz
      · have either := total z y
        rw [strict, Bool.not_eq_true'] at before
        rwa [before, Bool.or_false] at either
      · exact below z hz
    · next behind =>
      have hyx : le y x := by
        rw [strict, Bool.not_eq_true, Bool.not_eq_false'] at behind
        exact behind
      refine List.pairwise_cons.mpr ⟨fun z hz => ?_, h⟩
      rcases List.mem_cons.mp hz with rfl | hz
      · exact hyx
      · exact trans z y x (below z hz) hyx

/-- Inserting one item after the other sorts stably: a new item goes behind those that it ties with,
and all of them came before it. -/
theorem sortsStably_stableSort (xs : List α) : SortsStably le xs (stableSort less xs) := by
  have inserted : (xs.foldl (fun sorted x => insertLast less x sorted) []).Pairwise
        (fun a b => le b a) ∧
      ∀ a, (xs.foldl (fun sorted x => insertLast less x sorted) []).filter (ties le a) =
        xs.reverse.filter (ties le a) := by
    induction xs using List.reverseRecOn with
    | nil => exact ⟨.nil, fun _ => rfl⟩
    | append_singleton xs x ih =>
      rw [List.foldl_append, List.reverse_append]
      refine ⟨pairwise_insertLast trans total strict x ih.1, fun a => ?_⟩
      refine (filter_insertLast strict trans a x _).trans ?_
      rw [List.filter_cons, ih.2]
      exact List.filter_cons.symm
  refine ⟨List.pairwise_reverse.mpr inserted.1, fun a => ?_⟩
  rw [stableSort, List.filter_reverse, inserted.2, List.filter_reverse, List.reverse_reverse]

/-- By uniqueness the two sorts are the same, so what the core library has about merge sort can be
used. -/
theorem stableSort_eq_mergeSort (xs : List α) : stableSort less xs = xs.mergeSort le :=
  (sortsStably_stableSort trans total strict xs).unique total (sortsStably_mergeSort trans total xs)

end Insertion

theorem isLE_total (cmp : α → α → Ordering) [Std.OrientedCmp cmp] (a b : α) :
    (cmp a b).isLE || (cmp b a).isLE := by
  have swap : cmp a b = (cmp b a).swap := Std.OrientedCmp.eq_swap
  rw [swap]
  cases cmp b a <;> rfl

/-- By an order that compares any two items, inserting sorts as merge sort does. -/
theorem stableSort_of_transCmp (cmp : α → α → Ordering) [Std.TransCmp cmp] (xs : List α) :
    stableSort (fun a b => cmp a b = .lt) xs = xs.mergeSort fun a b => (cmp a b).isLE := by
  refine stableSort_eq_mergeSort (fun a b c => Std.TransCmp.isLE_trans) (isLE_total cmp)
    (fun a b => ?_) xs
  have swap : cmp a b = (cmp b a).swap := Std.OrientedCmp.eq_swap
  rw [swap]
  cases cmp b a <;> rfl

/-! ## Orders that agree on a list -/

/-- Merge sort depends on how the items of the list compare and on nothing else. -/
theorem mergeSort_congr {le' : α → α → Bool} {xs : List α}
    (same : ∀ a ∈ xs, ∀ b ∈ xs, le a b = le' a b) : xs.mergeSort le = xs.mergeSort le' := by
  have mapped := List.map_mergeSort (f := id) same
  rwa [List.map_id, List.map_id] at mapped

/-- Two comparisons that agree on a list sort it alike. The keys of records are compared by one that
is an order on these records only. -/
theorem mergeSort_of_agree {cmp order : α → α → Ordering} {xs : List α}
    (agree : ∀ a ∈ xs, ∀ b ∈ xs, order a b = cmp a b) :
    (xs.mergeSort fun a b => (order a b).isLE) = xs.mergeSort fun a b => (cmp a b).isLE :=
  mergeSort_congr fun a ha b hb => congrArg Ordering.isLE (agree a ha b hb)

section

variable (cmp : α → α → Ordering) [Std.TransCmp cmp] {order : α → α → Ordering} {xs ys : List α}
  (agree : ∀ a ∈ xs, ∀ b ∈ xs, order a b = cmp a b)
include agree

/-- Merge sort by an order that compares any two items *of the list* puts them in order and keeps
whatever was in order. -/
theorem mergeSort_of_transCmp :
    (xs.mergeSort fun a b => (order a b).isLE).Pairwise (fun a b => (order a b).isLE) ∧
      ∀ zs : List α, zs.Sublist xs → zs.Pairwise (fun a b => (order a b).isLE) →
        zs.Sublist (xs.mergeSort fun a b => (order a b).isLE) := by
  have trans : ∀ a b c, (cmp a b).isLE → (cmp b c).isLE → (cmp a c).isLE :=
    fun a b c => Std.TransCmp.isLE_trans
  rw [mergeSort_of_agree agree]
  constructor
  · refine (List.pairwise_mergeSort trans (isLE_total cmp) xs).imp_of_mem fun {a b} ha hb le => ?_
    rwa [agree a (List.mem_mergeSort.mp ha) b (List.mem_mergeSort.mp hb)]
  · intro zs within ordered
    refine List.sublist_mergeSort trans (isLE_total cmp)
      (ordered.imp_of_mem fun {a b} ha hb le => ?_) within
    rwa [← agree a (within.subset ha) b (within.subset hb)]

/-- It is the only list that has the items in order and keeps those that tie as they came. -/
theorem eq_mergeSort_of_kept (perm : ys.Perm xs)
    (sorted : ys.Pairwise fun a b => (order a b).isLE)
    (kept : ∀ zs : List α, zs.Sublist xs → zs.Pairwise (fun a b => order a b = .eq) →
      zs.Sublist ys) : ys = xs.mergeSort fun a b => (order a b).isLE := by
  have trans : ∀ a b c, (cmp a b).isLE → (cmp b c).isLE → (cmp a c).isLE :=
    fun a b c => Std.TransCmp.isLE_trans
  have stable : SortsStably (fun a b => (cmp a b).isLE) xs ys := by
    refine .of_kept trans perm (sorted.imp_of_mem fun {a b} ha hb le => ?_) fun zs within tied => ?_
    · rwa [← agree a (perm.subset ha) b (perm.subset hb)]
    · refine kept zs within (tied.imp_of_mem fun {a b} ha hb tie => ?_)
      rw [ties, Bool.and_eq_true] at tie
      rw [agree a (within.subset ha) b (within.subset hb)]
      exact Std.OrientedCmp.isLE_antisymm tie.1 tie.2
  rw [mergeSort_of_agree agree]
  exact stable.unique (isLE_total cmp) (sortsStably_mergeSort trans (isLE_total cmp) xs)

end

end EntityQuery
