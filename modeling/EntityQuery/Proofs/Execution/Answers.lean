import EntityQuery.Execution.Executor
import EntityQuery.Proofs.Failure

/-!
# The answers of an executor

An open executor has a list of answers to give, each a row or a failure: the records that are not
read yet, and what the stages above make of them (`Executor.answers`). One attempt takes at most
one answer off the front of that list (`step_answers`), so `next` gives the first of them
(`next_answers`), and collecting reads them all up to the first failure (`collect_answers`).

The list is what the executor *would* give. A window ends it at its end, and what an executor below
would still have given behind that is never asked for.
-/

namespace EntityQuery

/-- A row or a failure. -/
abbrev Answer := Except ExecutionError Row

namespace Attempt

/-- The answer that an attempt gives, if it gives one. -/
def answer : Attempt → List Answer
  | .row taken => [.ok taken]
  | .failure error => [.error error]
  | .finished | .skipped => []

end Attempt

/-- What becomes of an answer above a stage. -/
def Answer.treat (treatRow : Row → Attempt) : Answer → List Answer
  | .ok row => (treatRow row).answer
  | .error error => [.error error]

/-- A stage that works row by row does to the answers below it what it does to one row, failures
passing through. -/
theorem Attempt.answer_treat (treatRow : Row → Attempt) (attempt : Attempt) :
    (attempt.treat treatRow).answer = attempt.answer.flatMap (Answer.treat treatRow) := by
  cases attempt with
  | row row => exact (List.append_nil _).symm
  | failure error => rfl
  | finished => rfl
  | skipped => rfl

namespace Executor

/-- What a window lets through of the answers below it, from a position on. A failure has no
position. -/
def windowed (offset : UInt64) (size : Option UInt64) : UInt64 → List Answer → List Answer
  | _, [] => []
  | position, .error error :: answers =>
    if windowFull offset size position then []
    else .error error :: windowed offset size position answers
  | position, .ok row :: answers =>
    if windowFull offset size position then []
    else if offset < position + 1 then .ok row :: windowed offset size (position + 1) answers
    else windowed offset size (position + 1) answers

/-- The answers that an open executor has still to give. -/
def answers : Executor → List Answer
  | .table _ _ unread => (unread.getD []).map fun r => .ok (.record r)
  | .filter predicate _ child => child.answers.flatMap (Answer.treat (Stage.filterRow predicate))
  | .sort _ sorted _ _ => sorted.map .ok
  | .window offset size position _ child => windowed offset size position child.answers
  | .project expressions _ child =>
    child.answers.flatMap (Answer.treat (Stage.projectRow expressions))

/-- An executor is open, as far down as its rows come from. -/
def Ready : Executor → Prop
  | .table _ _ unread => unread.isSome
  | .filter _ opening child => opening.isOpen ∧ child.Ready
  | .sort _ _ opening _ => opening.isOpen
  | .window _ _ _ opening child => opening.isOpen ∧ child.Ready
  | .project _ opening child => opening.isOpen ∧ child.Ready

/-- A full window gives nothing more, whatever there still is below it. -/
theorem windowed_of_full {offset position : UInt64} {size : Option UInt64}
    (full : windowFull offset size position) (as : List Answer) :
    windowed offset size position as = [] := by
  match as with
  | [] => rfl
  | .error error :: as => rw [windowed, if_pos full]
  | .ok row :: as => rw [windowed, if_pos full]

/-- What one attempt says of the answers: it takes those that it gives off the front, and it is
finished only when there are none. -/
structure Took (e : Executor) (attempt : Attempt) (rest : Executor) : Prop where
  ready : rest.Ready
  answers : e.answers = attempt.answer ++ rest.answers
  finished : attempt = .finished → rest.answers = []

theorem filterRow_ne_finished (predicate : Expression) (row : Row) :
    Stage.filterRow predicate row ≠ .finished := by
  unfold Stage.filterRow
  split
  · rintro ⟨⟩
  · split <;> rintro ⟨⟩

theorem projectRow_ne_finished (expressions : List Expression) (row : Row) :
    Stage.projectRow expressions row ≠ .finished := by
  unfold Stage.projectRow
  split
  · rintro ⟨⟩
  · split <;> rintro ⟨⟩

/-- A stage that never ends by itself ends only with the stage below it. -/
theorem finished_of_treat {treatRow : Row → Attempt} (never : ∀ row, treatRow row ≠ .finished)
    {attempt : Attempt} (h : attempt.treat treatRow = .finished) : attempt = .finished := by
  cases attempt with
  | row row => exact absurd h (never row)
  | failure error => cases h
  | finished => rfl
  | skipped => cases h

/-- A stage that treats rows makes of the answers below it what it makes of each. -/
theorem Took.treat {child rest : Executor} {attempt : Attempt} (h : Took child attempt rest)
    {treatRow : Row → Attempt} (never : ∀ row, treatRow row ≠ .finished) :
    child.answers.flatMap (Answer.treat treatRow) =
        (attempt.treat treatRow).answer ++ rest.answers.flatMap (Answer.treat treatRow) ∧
      (attempt.treat treatRow = .finished →
        rest.answers.flatMap (Answer.treat treatRow) = []) := by
  refine ⟨?_, fun hf => ?_⟩
  · rw [h.answers, List.flatMap_append, Attempt.answer_treat]
  · rw [h.finished (finished_of_treat never hf)]
    rfl

/-- A window that is not full counts a row that is taken below it, and lets it through from its
start on. -/
theorem took_window {child : Executor} (took : Took child child.step.2 child.step.1)
    {offset position : UInt64} {size : Option UInt64} {opening : Opening}
    (isOpen : opening.isOpen) (notFull : windowFull offset size position = false) :
    Took (.window offset size position opening child)
      (Executor.window offset size position opening child).step.2
      (Executor.window offset size position opening child).step.1 := by
  simp only [step, isOpen, notFull, if_true, Bool.false_eq_true, if_false]
  cases hs : child.step with
  | mk rest attempt =>
    rw [hs] at took
    have below := took.answers
    -- a full window takes nothing, so only one that is open is looked at here
    cases attempt with
    | row row =>
      refine ⟨⟨isOpen, took.ready⟩, ?_, ?_⟩
      · simp only [answers, below, Attempt.answer, List.singleton_append, windowed, notFull,
          Bool.false_eq_true, if_false]
        split <;> rfl
      · dsimp only
        split <;> rintro ⟨⟩
    | failure error =>
      refine ⟨⟨isOpen, took.ready⟩, ?_, by rintro ⟨⟩⟩
      simp only [answers, below, Attempt.answer, List.singleton_append, windowed, notFull,
        Bool.false_eq_true, if_false]
    | finished =>
      have none := took.finished rfl
      refine ⟨⟨isOpen, took.ready⟩, ?_, fun _ => ?_⟩
      · simp only [answers, below, Attempt.answer, List.nil_append]
      · simp only [answers, none, windowed]
    | skipped =>
      refine ⟨⟨isOpen, took.ready⟩, ?_, by rintro ⟨⟩⟩
      simp only [answers, below, Attempt.answer, List.nil_append]

/-- One attempt takes at most one answer, the first that the executor has still to give. By
induction on the stages: each of them treats what the one below it took. -/
theorem step_answers {e : Executor} (h : e.Ready) : Took e e.step.2 e.step.1 := by
  induction e with
  | table entity columns unread =>
    match unread, h with
    | some [], _ => exact ⟨rfl, rfl, fun _ => rfl⟩
    | some (r :: rest), _ => exact ⟨rfl, rfl, by rintro ⟨⟩⟩
  | filter predicate opening child ih =>
    obtain ⟨isOpen, below⟩ := h
    have took := ih below
    have treated := took.treat (filterRow_ne_finished predicate)
    simp only [step, isOpen, if_true]
    exact ⟨⟨isOpen, took.ready⟩, treated.1, treated.2⟩
  | sort ordering sorted opening child ih =>
    have isOpen : opening.isOpen = true := h
    cases sorted with
    | nil =>
      simp only [step, isOpen, if_true]
      exact ⟨isOpen, rfl, fun _ => rfl⟩
    | cons row rest =>
      simp only [step, isOpen, if_true]
      exact ⟨isOpen, rfl, by rintro ⟨⟩⟩
  | window offset size position opening child ih =>
    obtain ⟨isOpen, below⟩ := h
    cases full : windowFull offset size position with
    | true =>
      -- a full window does not ask below, so it is finished while `child` may not be
      simp only [step, isOpen, full, if_true]
      exact ⟨⟨isOpen, below⟩, rfl, fun _ => windowed_of_full full _⟩
    | false => exact took_window (ih below) isOpen full
  | project expressions opening child ih =>
    obtain ⟨isOpen, below⟩ := h
    have took := ih below
    have treated := took.treat (projectRow_ne_finished expressions)
    simp only [step, isOpen, if_true]
    exact ⟨⟨isOpen, took.ready⟩, treated.1, treated.2⟩

/-- What asking for the next row gives: the first answer, or nothing when there is none. -/
def Gives (e : Executor) : Executor × Except ExecutionError (Option Row) → Prop
  | (rest, .ok (some row)) => rest.Ready ∧ e.answers = .ok row :: rest.answers
  | (_, .ok none) => e.answers = []
  | (rest, .error error) => rest.Ready ∧ e.answers = .error error :: rest.answers

/-- Asking for the next row gives the first answer, and leaves the others. Attempts that skip a row
take no answer, so any number of them can come before. -/
theorem next_answers {e : Executor} (h : e.Ready) : Gives e e.next := by
  fun_induction next e with
  | case1 e rest hs ih =>
    have took := step_answers h
    rw [hs] at took
    have given := ih took.ready
    have same : e.answers = rest.answers := took.answers
    unfold Gives at given ⊢
    split at given
    · rw [same]; exact given
    · rw [same]; exact given
    · rw [same]; exact given
  | case2 e rest row hs =>
    have took := step_answers h
    rw [hs] at took
    exact ⟨took.ready, took.answers⟩
  | case3 e rest hs =>
    have took := step_answers h
    rw [hs] at took
    exact took.answers.trans (took.finished rfl)
  | case4 e rest error hs =>
    have took := step_answers h
    rw [hs] at took
    exact ⟨took.ready, took.answers⟩

/-- Collecting reads the answers in turn, up to the first failure. From here on an executor is a
list of answers, and what it holds does not matter any more. -/
theorem collect_answers {α : Type} (read : Row → Except ExecutionError α) {e : Executor}
    (h : e.Ready) : (e.collect read).2 = e.answers.mapM fun answer => answer.bind read := by
  fun_induction collect read e with
  | case1 e rest hn =>
    have given := next_answers h
    rw [hn] at given
    rw [show e.answers = [] from given]
    rfl
  | case2 e rest error hn =>
    have given := next_answers h
    rw [hn] at given
    rw [given.2, mapM_cons_eq]
    rfl
  | case3 e rest row hn error hr =>
    have given := next_answers h
    rw [hn] at given
    rw [given.2, mapM_cons_eq]
    change _ = (read row >>= _)
    rw [hr]
    rfl
  | case4 e rest row hn x hr left others hc ih =>
    have given := next_answers h
    rw [hn] at given
    have behind := ih given.1
    rw [hc] at behind
    rw [given.2, mapM_cons_eq, ← behind]
    change _ = (read row >>= _)
    rw [hr]
    rfl

end Executor

end EntityQuery
