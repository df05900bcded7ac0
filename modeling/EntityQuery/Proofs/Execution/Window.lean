import EntityQuery.Proofs.Execution.Answers

/-!
# Windows over lists

A window counts in 64 bits, and its end is a sum that stops at the greatest of them. As long as
there are no more rows than 64 bits can count, none of this shows: a position is inside the end when
it is as a natural number (`windowFull_eq_false_iff`), and of a list of rows a window lets through
what dropping and taking leaves (`slice`).
-/

namespace EntityQuery

/-- A position is in front of the end of a window; without a size there is no end. -/
def Within (offset : UInt64) (size : Option UInt64) (k : Nat) : Prop :=
  ∀ n ∈ size, k < offset.toNat + n.toNat

/-- The part of a list that a window lets through, the first item of it being at a position. -/
def slice {α : Type} (offset : UInt64) (size : Option UInt64) (k : Nat) (xs : List α) : List α :=
  match size with
  | none => xs.drop (offset.toNat - k)
  | some n => (xs.take (offset.toNat + n.toNat - k)).drop (offset.toNat - k)

variable {α : Type} {offset : UInt64} {size : Option UInt64}

/-- What is in front of the end stays so when one goes back. -/
theorem Within.mono {j k : Nat} (h : Within offset size k) (le : j ≤ k) : Within offset size j :=
  fun n hn => Nat.lt_of_le_of_lt le (h n hn)

/-! ## Counting in 64 bits -/

section Counting

variable {position : UInt64} (room : position.toNat + 1 < UInt64.size)
include room

/-- A position can be counted up as long as there is room, and the number of records leaves room. -/
theorem toNat_succ : (position + 1).toNat = position.toNat + 1 := by
  rw [UInt64.toNat_add]
  exact Nat.mod_eq_of_lt room

theorem lt_succ_iff : offset < position + 1 ↔ offset.toNat ≤ position.toNat := by
  rw [UInt64.lt_iff_toNat_lt, toNat_succ room]
  exact Nat.lt_succ_iff

/-- A window is not full as long as the position is in front of its end. -/
theorem windowFull_eq_false_iff :
    Executor.windowFull offset size position = false ↔ Within offset size position.toNat := by
  cases size with
  | none => exact iff_of_true rfl fun n hn => by cases hn
  | some n =>
    have within : Within offset (some n) position.toNat ↔
        position.toNat < offset.toNat + n.toNat := by
      constructor
      · intro h
        exact h n rfl
      · rintro h m ⟨⟩
        exact h
    rw [within, Executor.windowFull, decide_eq_false_iff_not, UInt64.le_iff_toNat_le, Nat.not_le]
    unfold Executor.saturatingAdd
    split
    · next fits =>
      rw [UInt64.toNat_add, Nat.mod_eq_of_lt fits]
    · next exceeds =>
      have greatest : (UInt64.ofNat (UInt64.size - 1)).toNat = UInt64.size - 1 := by decide
      rw [greatest]
      omega

end Counting

/-! ## Slices -/

theorem slice_nil (k : Nat) : slice offset size k ([] : List α) = [] := by
  unfold slice
  split
  · exact List.drop_nil
  · rw [List.take_nil, List.drop_nil]

/-- Behind the end of a window nothing is shown. -/
theorem slice_of_not_within {k : Nat} (h : ¬Within offset size k) (xs : List α) :
    slice offset size k xs = [] := by
  cases size with
  | none => exact absurd (fun n hn => by cases hn) h
  | some n =>
    have full : offset.toNat + n.toNat - k = 0 := by
      refine Nat.sub_eq_zero_of_le (Nat.le_of_not_lt fun lt => h ?_)
      rintro m ⟨⟩
      exact lt
    rw [slice, full, List.take_zero, List.drop_nil]

/-- An item between the start and the end is let through. -/
theorem slice_cons_of_le {k : Nat} (within : Within offset size k) (le : offset.toNat ≤ k) (x : α)
    (xs : List α) : slice offset size k (x :: xs) = x :: slice offset size (k + 1) xs := by
  have front : offset.toNat - k = 0 := Nat.sub_eq_zero_of_le le
  have front' : offset.toNat - (k + 1) = 0 := Nat.sub_eq_zero_of_le (Nat.le_succ_of_le le)
  cases size with
  | none => rw [slice, slice, front, front', List.drop_zero, List.drop_zero]
  | some n =>
    have lt := within n rfl
    have next : offset.toNat + n.toNat - k = offset.toNat + n.toNat - (k + 1) + 1 := by omega
    rw [slice, slice, front, front', List.drop_zero, List.drop_zero, next, List.take_succ_cons]

/-- An item in front of the start is dropped. -/
theorem slice_cons_of_lt {k : Nat} (lt : k < offset.toNat) (x : α) (xs : List α) :
    slice offset size k (x :: xs) = slice offset size (k + 1) xs := by
  have front : offset.toNat - k = offset.toNat - (k + 1) + 1 := by omega
  cases size with
  | none => rw [slice, slice, front, List.drop_succ_cons]
  | some n =>
    have next : offset.toNat + n.toNat - k = offset.toNat + n.toNat - (k + 1) + 1 := by omega
    rw [slice, slice, front, next, List.take_succ_cons, List.drop_succ_cons]

/-- From the first position on, a window drops what is in front of it and takes as many as its
size says. -/
theorem slice_zero (xs : List α) :
    slice offset size 0 xs =
      match size with
      | none => xs.drop offset.toNat
      | some n => (xs.drop offset.toNat).take n.toNat := by
  cases size with
  | none => rfl
  | some n =>
    rw [slice, Nat.sub_zero, Nat.sub_zero, List.drop_take, Nat.add_sub_cancel_left]

namespace Executor

/-! ## Answers -/

/-- Without bounds a window lets everything through, as long as the position can be counted. -/
theorem windowed_unbounded {position : UInt64} {as : List Answer}
    (room : position.toNat + as.length < UInt64.size) : windowed 0 none position as = as := by
  induction as generalizing position with
  | nil => rfl
  | cons a as ih =>
    rw [List.length_cons] at room
    cases a with
    | error error =>
      rw [windowed, ih (by omega)]
      rfl
    | ok row =>
      have more : position.toNat + 1 < UInt64.size := by omega
      have inside : (0 : UInt64) < position + 1 := (lt_succ_iff more).mpr (Nat.zero_le _)
      have rest : windowed 0 none (position + 1) as = as := ih (by rw [toNat_succ more]; omega)
      rw [windowed, if_pos inside, rest]
      rfl

/-- A window that starts at the first row and has no end lets every answer through. -/
theorem windowed_all {as : List Answer} (room : as.length < UInt64.size) :
    windowed 0 none 0 as = as :=
  windowed_unbounded (by rwa [UInt64.toNat_zero, Nat.zero_add])

end Executor

end EntityQuery
