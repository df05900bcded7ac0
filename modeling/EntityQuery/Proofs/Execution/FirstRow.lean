import EntityQuery.Proofs.Execution.Pages

/-!
# The first row of a request

The first row is fetched by a run of its own, with one as the size of the request. That run is
shorter than the one for all rows: it ends as soon as a row has come out of the window. As long as
the request asks for a row at all, what it has met by then was met in the longer run as well, so the
row is the first of that run (`Backend.fetchOne_of_nonzero`).

A request of size zero asks for no row, and one of size one does. So the first row is that of the
request exactly when the size is not zero, or when there is no row to be found behind the offset
either (`Backend.fetchOne_eq_head_iff`).
-/

namespace EntityQuery

namespace Executor

variable {offset position : UInt64} {size : Option UInt64} {as : List Answer} {rows : List Row}

/-- Behind its end a window lets nothing through. -/
theorem windowed_of_not_within (room : position.toNat + as.length < UInt64.size)
    (behind : ¬Within offset size position.toNat) : windowed offset size position as = [] := by
  cases as with
  | nil => rfl
  | cons a as =>
    rw [List.length_cons] at room
    have more : position.toNat + 1 < UInt64.size := by omega
    exact windowed_of_full (Bool.of_not_eq_false (mt (windowFull_eq_false_iff more).mp behind)) _

/-- Of a window that lets rows through and meets no failure, one of size one lets the first row
through, and meets none either. -/
theorem windowed_one (room : position.toNat + as.length < UInt64.size)
    (front : position.toNat ≤ offset.toNat) (nonzero : size ≠ some 0)
    (fine : windowed offset size position as = rows.map .ok) :
    windowed offset (some 1) position as = (rows.take 1).map .ok := by
  induction as generalizing position with
  | nil =>
    rw [List.map_eq_nil_iff.mp fine.symm]
    rfl
  | cons a as ih =>
    rw [List.length_cons] at room
    have more : position.toNat + 1 < UInt64.size := by omega
    have behind : position.toNat + 1 + as.length < UInt64.size := by omega
    rw [← toNat_succ more] at behind
    have within : Within offset size position.toNat := by
      intro n hn
      have positive : n.toNat ≠ 0 := by
        intro zero
        exact nonzero (hn.trans (congrArg some (UInt64.toNat_inj.mp zero)))
      omega
    have withinOne : Within offset (some 1) position.toNat := by
      intro n hn
      rw [← Option.some.inj hn]
      exact Nat.lt_succ_of_le front
    have open_ := (windowFull_eq_false_iff more).mpr within
    have openOne := (windowFull_eq_false_iff more).mpr withinOne
    cases a with
    | error error =>
      rw [windowed, open_, if_neg Bool.false_ne_true] at fine
      cases rows <;> cases fine
    | ok row =>
      rw [windowed, open_, if_neg Bool.false_ne_true] at fine
      rw [windowed, openOne, if_neg Bool.false_ne_true]
      by_cases start : offset.toNat ≤ position.toNat
      · -- this row is the first, and the window of size one ends behind it
        rw [if_pos ((lt_succ_iff more).mpr start)] at fine ⊢
        have ended : ¬Within offset (some 1) (position + 1).toNat := by
          intro inside
          have := inside 1 rfl
          rw [toNat_succ more, show (1 : UInt64).toNat = 1 from rfl] at this
          omega
        cases rows with
        | nil => cases fine
        | cons first rest =>
          rw [windowed_of_not_within behind ended, (List.cons.inj fine).1]
          rfl
      · rw [if_neg (mt (lt_succ_iff more).mp start)] at fine ⊢
        exact ih behind (by rw [toNat_succ more]; omega) fine

/-- A window of size zero lets no row through. It is full at its offset, so the rows in front of
that are still gone through, and their failures met. -/
theorem windowed_zero (room : position.toNat + as.length < UInt64.size)
    (fine : windowed offset (some 0) position as = rows.map .ok) : rows = [] := by
  induction as generalizing position with
  | nil => exact List.map_eq_nil_iff.mp fine.symm
  | cons a as ih =>
    rw [List.length_cons] at room
    have more : position.toNat + 1 < UInt64.size := by omega
    have behind : position.toNat + 1 + as.length < UInt64.size := by omega
    rw [← toNat_succ more] at behind
    by_cases within : Within offset (some 0) position.toNat
    · have open_ := (windowFull_eq_false_iff more).mpr within
      have front : position.toNat < offset.toNat := within 0 rfl
      cases a with
      | error error =>
        rw [windowed, open_, if_neg Bool.false_ne_true] at fine
        cases rows <;> cases fine
      | ok row =>
        rw [windowed, open_, if_neg Bool.false_ne_true,
          if_neg (mt (lt_succ_iff more).mp (Nat.not_le.mpr front))] at fine
        exact ih behind fine
    · rw [windowed_of_not_within (by rw [List.length_cons]; omega) within] at fine
      exact List.map_eq_nil_iff.mp fine.symm

end Executor

namespace Backend

variable {b : Backend} {r : Request} {rows : List Row}

/-- A request that asks for a row finds the first of its rows. -/
theorem fetchOne_of_nonzero (fetched : b.fetch r = .ok rows) (nonzero : r.size ≠ some 0) :
    b.fetchOne r = .ok rows.head? := by
  obtain ⟨as, lower, below, room, through, shown⟩ := exists_windowed fetched
  have through : Executor.windowed (r.offset.getD 0) (some 1) 0 as = (lower.take 1).map .ok :=
    Executor.windowed_one (by simpa using room) (by simp) nonzero through
  have first : (lower.take 1).mapM r.showRow = .ok (rows.take 1) :=
    mapM_eq_ok.mpr (List.forall₂_take 1 (mapM_eq_ok.mp shown))
  have known := known_of_fetch fetched
  have nonempty := nonempty_of_fetch fetched
  have single : b.fetch { r with size := some 1 } = .ok (rows.take 1) := by
    rw [@fetch_of_below b { r with size := some 1 } as known nonempty below room]
    exact mapM_bind_eq_ok.mpr ⟨lower.take 1, through, first⟩
  rw [fetchOne, single, Except.map, List.head?_take, if_neg Nat.one_ne_zero]

/-- A request that asks for no row has none. -/
theorem rows_of_zero (fetched : b.fetch r = .ok rows) (zero : r.size = some 0) : rows = [] := by
  obtain ⟨as, lower, -, room, through, shown⟩ := exists_windowed fetched
  rw [zero] at through
  have nothing : lower = [] := Executor.windowed_zero (by simpa using room) through
  rw [nothing] at shown
  exact (Except.ok.inj shown).symm

/-- The first row is that of the request, or there is none where the request has no rows, unless
the size of the request is zero and a row would be found with the size one. -/
theorem fetchOne_eq_head_iff (fetched : b.fetch r = .ok rows) :
    b.fetchOne r = .ok rows.head? ↔
      (r.size = some 0 → b.fetch { r with size := some 1 } = .ok []) := by
  by_cases zero : r.size = some 0
  · have empty : rows = [] := rows_of_zero fetched zero
    simp only [zero, empty, fetchOne, map_eq_ok, List.head?_nil, List.head?_eq_none_iff,
      exists_eq_right, forall_const]
  · exact iff_of_true (fetchOne_of_nonzero fetched zero) fun isZero => absurd isZero zero

/-- The longest screw but one is the first row behind an offset of one, whatever the size. -/
theorem fetchOne_eq_head_iff_screws :
    ∃ rows, threeScrews.fetch byLength = .ok rows ∧
      threeScrews.fetchOne byLength = .ok rows.head? := by
  obtain ⟨rows, fetched⟩ := exists_of_isOk
    (show (threeScrews.fetch byLength).isOk by decide +kernel)
  exact ⟨rows, fetched, (fetchOne_eq_head_iff fetched).mpr fun zero => absurd zero (by decide)⟩

/-- A request of size zero has no rows, but a first row. -/
theorem fetchOne_of_size_zero :
    let nothing := { byLength with size := some 0 }
    threeScrews.fetch nothing = .ok [] ∧ ∃ row, threeScrews.fetchOne nothing = .ok (some row) := by
  intro nothing
  obtain ⟨rows, fetched⟩ := exists_of_isOk
    (show (threeScrews.fetch nothing).isOk by decide +kernel)
  have found : (threeScrews.fetchOne nothing).toOption.join.isSome := by decide +kernel
  obtain ⟨row, hrow⟩ := Option.isSome_iff_exists.mp found
  refine ⟨rows_of_zero fetched rfl ▸ fetched, row, ok_of_toOption ?_⟩
  exact Option.join_eq_some_iff.mp hrow

end Backend

end EntityQuery
