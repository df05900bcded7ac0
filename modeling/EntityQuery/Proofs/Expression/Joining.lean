import EntityQuery.Expression.Evaluation
import EntityQuery.Proofs.Failure

/-!
# Joining any number of truths

Kleene's connectives for lists: a conjunction is false as soon as one of its parts is, a disjunction
true as soon as one is, and either is unknown if that is not so and some part is unknown. How the
parts are grouped makes no difference (`Truth.join_append`), and predicates that are joined one by
one have the joined truth of them all (`Expression.test_foldl_logical`).
-/

namespace EntityQuery

open EntityQuery.Filter (Junction)

namespace Truth

/-- The conjunction of a list: false as soon as one is, and true when all are. -/
def every (ts : List Truth) : Truth :=
  if .false ∈ ts then .false else if .unknown ∈ ts then .unknown else .true

/-- The disjunction of a list: true as soon as one is, and false when all are. -/
def anyOne (ts : List Truth) : Truth :=
  if .true ∈ ts then .true else if .unknown ∈ ts then .unknown else .false

/-- A list joined in one of the two ways. -/
def join : Junction → List Truth → Truth
  | .and => every
  | .or => anyOne

/-- One truth is joined to itself. -/
theorem join_singleton (j : Junction) (t : Truth) : join j [t] = t := by
  cases j <;> cases t <;> rfl

/-- The truths of a list can be joined from the right as well as from the left, since joining is
associative. The compiler folds from the left; a proof by induction on the list needs the other
way. -/
theorem join_cons (j : Junction) (t : Truth) (ts : List Truth) :
    join j (t :: ts) = joinTruths j t (join j ts) := by
  cases j with
  | and =>
    by_cases hf : Truth.false ∈ ts <;> by_cases hu : Truth.unknown ∈ ts <;>
      cases t <;> simp [join, every, joinTruths, Truth.and, hf, hu]
  | or =>
    by_cases ht : Truth.true ∈ ts <;> by_cases hu : Truth.unknown ∈ ts <;>
      cases t <;> simp [join, anyOne, joinTruths, Truth.or, ht, hu]

/-- Kleene's connectives are associative, unknown included. -/
theorem joinTruths_assoc (j : Junction) (a b c : Truth) :
    joinTruths j (joinTruths j a b) c = joinTruths j a (joinTruths j b c) := by
  cases j <;> cases a <;> cases b <;> cases c <;> rfl

/-- The first two truths can be joined before the others, which is one step of the fold. -/
theorem join_cons_cons (j : Junction) (a b : Truth) (ts : List Truth) :
    join j (a :: b :: ts) = join j (joinTruths j a b :: ts) := by
  simp only [join_cons, joinTruths_assoc]

/-- The join of no truths is neutral: true for "and", false for "or". -/
theorem joinTruths_join_nil (j : Junction) (t : Truth) : joinTruths j (join j []) t = t := by
  cases j <;> cases t <;> rfl

/-- A part of a list can be joined beforehand. -/
theorem join_append (j : Junction) (front behind : List Truth) :
    join j (front ++ behind) = joinTruths j (join j front) (join j behind) := by
  induction front with
  | nil => rw [List.nil_append, joinTruths_join_nil]
  | cons t ts ih => rw [List.cons_append, join_cons, ih, join_cons, joinTruths_assoc]

/-- All of the truths are true exactly when none of them is false or unknown. -/
theorem every_eq_true {ts : List Truth} : every ts = .true ↔ ∀ t ∈ ts, t = .true := by
  constructor
  · intro h t ht
    cases t with
    | true => rfl
    | false => simp [every, ht] at h
    | unknown =>
      unfold every at h
      split at h <;> cases h
  · intro h
    have hf : Truth.false ∉ ts := fun hm => by cases h _ hm
    have hu : Truth.unknown ∉ ts := fun hm => by cases h _ hm
    rw [every, if_neg hf, if_neg hu]

/-- Some truth is true exactly when one of them is, whatever is unknown beside it. -/
theorem anyOne_eq_true {ts : List Truth} : anyOne ts = .true ↔ .true ∈ ts := by
  unfold anyOne
  split
  · next h => exact iff_of_true rfl h
  · next h =>
    split
    · exact iff_of_false (by decide) h
    · exact iff_of_false (by decide) h

/-- No truth is true and none is unknown only when all of them are false. -/
theorem anyOne_eq_false {ts : List Truth} : anyOne ts = .false ↔ ∀ t ∈ ts, t = .false := by
  constructor
  · intro h t ht
    cases t with
    | true => simp [anyOne, ht] at h
    | false => rfl
    | unknown =>
      unfold anyOne at h
      split at h <;> cases h
  · intro h
    have ht : Truth.true ∉ ts := fun hm => by cases h _ hm
    have hu : Truth.unknown ∉ ts := fun hm => by cases h _ hm
    rw [anyOne, if_neg ht, if_neg hu]

/-- Only of nothing do the two disjunctions differ. -/
theorem any_eq_anyOne {ts : List Truth} (h : ts ≠ []) : any ts = anyOne ts := by
  induction ts with
  | nil => exact absurd rfl h
  | cons t ts ih =>
    cases ts with
    | nil => exact (join_singleton .or t).symm
    | cons t' ts =>
      have step : any (t :: t' :: ts) = joinTruths .or t (any (t' :: ts)) := rfl
      rw [step, ih (List.cons_ne_nil t' ts)]
      exact (join_cons .or t (t' :: ts)).symm

/-- A disjunction that is unknown of nothing is true as soon as one of its parts is, too. -/
theorem any_eq_true {ts : List Truth} : any ts = .true ↔ .true ∈ ts := by
  by_cases h : ts = []
  · subst h
    exact iff_of_false nofun List.not_mem_nil
  · rw [any_eq_anyOne h, anyOne_eq_true]

/-- It is false when all of its parts are, and there are some. -/
theorem any_eq_false {ts : List Truth} :
    any ts = .false ↔ ts ≠ [] ∧ ∀ t ∈ ts, t = .false := by
  by_cases h : ts = []
  · subst h
    exact iff_of_false nofun fun h => h.1 rfl
  · rw [any_eq_anyOne h, anyOne_eq_false, and_iff_right h]

end Truth

namespace Expression

/-- Predicates that are joined from the left have the joined truth of them all. -/
theorem test_foldl_logical (j : Junction) (r : Record) (first : Expression)
    (es : List Expression) :
    (es.foldl (logical j) first).test r = ((first :: es).mapM (test r)).map (Truth.join j) := by
  induction es generalizing first with
  | nil =>
    rw [mapM_cons_eq]
    cases h : first.test r with
    | error m => exact h
    | ok t => exact h.trans (congrArg Except.ok (Truth.join_singleton j t).symm)
  | cons e es ih =>
    rw [List.foldl_cons, ih, mapM_cons_eq, mapM_cons_eq, mapM_cons_eq]
    have hl : (logical j first e).test r =
        first.test r >>= fun a => e.test r >>= fun b => .ok (joinTruths j a b) := rfl
    rw [hl]
    cases first.test r with
    | error m => rfl
    | ok a =>
      cases e.test r with
      | error m => rfl
      | ok b =>
        cases es.mapM (Expression.test r) with
        | error m => rfl
        | ok ts => exact congrArg Except.ok (Truth.join_cons_cons j a b ts).symm

end Expression

end EntityQuery
