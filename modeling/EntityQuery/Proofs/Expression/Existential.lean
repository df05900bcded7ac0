import EntityQuery.Proofs.Expression.Candidates
import EntityQuery.Proofs.Expression.Joining
import EntityQuery.Sample
import Mathlib.Logic.Function.Iterate

/-!
# Predicates hold for some candidate

A predicate over candidates has an outcome for each of them: a check and a membership one for each
candidate of the operand, a comparison one for each pair of candidates (`Expression.Tests`). The
predicate holds when one of the outcomes does, but not before all of them are known: an outcome that
is a failure makes the whole predicate fail, whatever stands in front of it, and of several failures
the first one counts.

It is false when all outcomes are, and there are some. Of no candidates nothing is known, neither of
the predicate nor of its negation, however often that is repeated (`Tests.existential`).
-/

namespace EntityQuery

variable {r : Record} {e : Expression} {outcomes : List (Except OperandMismatch Truth)}
  {m : OperandMismatch} {ts : List Truth}

namespace Expression

/-- The outcomes of a predicate for the candidates of its operands, in the order in which these are
tested: of a comparison the candidates on the left are the outer ones. -/
inductive Tests (r : Record) : Expression → List (Except OperandMismatch Truth) → Prop
  | compare {relation : Relation} {left right : Expression} {ls rs : List Value}
    (hl : left.values r = .ok ls) (hr : right.values r = .ok rs) :
    Tests r (compare relation left right) (ls.flatMap fun v => rs.map fun w => relation.apply v w)
  | check {k : Check} {e : Expression} {vs : List Value} (h : e.values r = .ok vs) :
    Tests r (check k e) (vs.map k.apply)
  | member {e : Expression} {items : List Value} {negated : Bool} {vs : List Value}
    (h : e.values r = .ok vs) :
    Tests r (member e items negated) (vs.map fun v => .ok (v.memberOf items negated))
  | path (p : Path) : Tests r (path p) ((p.candidates r).map Value.truth)

namespace Tests

/-- The outcomes decide, by their disjunction. All are found before any is looked at, so a failure
behind a true outcome is met as well. -/
theorem test_eq (h : e.Tests r outcomes) :
    e.test r = outcomes.mapM id >>= fun ts => .ok (Truth.any ts) := by
  cases h with
  | @compare relation left right ls rs hl hr =>
    have outcomes : (Evaluation.pairs ls rs).map (fun pair => relation.apply pair.1 pair.2) =
        ls.flatMap fun v => rs.map fun w => relation.apply v w := by
      simp only [Evaluation.pairs, List.map_flatMap, List.map_map, Function.comp_def]
    rw [test_compare, hl, ok_bind, hr, ok_bind, ← outcomes, List.mapM_map]
    rfl
  | check h =>
    rw [test_check, h, ok_bind, List.mapM_map]
    rfl
  | member h =>
    rw [test_member, h, ok_bind, List.mapM_map]
    rfl
  | path p =>
    rw [List.mapM_map]
    rfl

/-- A test fails with the first outcome that is a failure, even behind one that is true. -/
theorem test_eq_error (h : e.Tests r outcomes) :
    e.test r = .error m ↔ FailsFirst id outcomes m := by
  rw [h.test_eq, ← mapM_eq_error]
  cases outcomes.mapM id with
  | error m' => rw [error_bind]; simp
  | ok ts => exact iff_of_false nofun nofun

/-- Where no outcome is a failure, the predicate is the disjunction of them all. -/
theorem test_eq_ok (h : e.Tests r outcomes) (fine : outcomes = ts.map .ok) :
    e.test r = .ok (Truth.any ts) := by
  have known : outcomes.mapM id = .ok ts := by
    rw [fine, mapM_eq_ok, List.forall₂_map_left_iff, List.forall₂_same]
    exact fun t _ => rfl
  rw [h.test_eq, known, ok_bind]

end Tests

/-- No number of negations makes anything known of the unknown. -/
theorem test_not_iterate (h : e.test r = .ok .unknown) (n : Nat) :
    (Expression.not^[n] e).test r = .ok .unknown := by
  induction n with
  | zero => exact h
  | succ n ih =>
    rw [Function.iterate_succ_apply', test_not, ih]
    rfl

/-- A predicate over candidates, by the outcomes for them: it fails as the first of the failures
among them, and else it is true when one outcome is, false when all are and there are some, and
unknown otherwise. Without candidates it is unknown, and so is its negation. -/
theorem Tests.existential (h : e.Tests r outcomes) :
    ((∃ m, e.test r = .error m) ↔ ∃ m, .error m ∈ outcomes) ∧
    (∀ m, e.test r = .error m ↔ FailsFirst id outcomes m) ∧
    ((∀ m, .error m ∉ outcomes) →
      (e.test r = .ok .true ↔ .ok .true ∈ outcomes) ∧
      (e.test r = .ok .false ↔ outcomes ≠ [] ∧ ∀ o ∈ outcomes, o = .ok .false) ∧
      (e.test r = .ok .unknown ↔
        .ok .true ∉ outcomes ∧ ¬(outcomes ≠ [] ∧ ∀ o ∈ outcomes, o = .ok .false))) ∧
    (outcomes = [] → ∀ n, (Expression.not^[n] e).test r = .ok .unknown) := by
  refine ⟨?_, fun m => h.test_eq_error, fun fine => ?_, fun none => ?_⟩
  · simp only [h.test_eq_error, exists_failsFirst_iff, id]
    exact ⟨fun ⟨o, mem, m, same⟩ => ⟨m, same ▸ mem⟩, fun ⟨m, mem⟩ => ⟨_, mem, m, rfl⟩⟩
  · obtain ⟨ts, each⟩ := exists_map_ok fine
    have isTrue : Truth.any ts = .true ↔ .ok .true ∈ outcomes := by
      rw [Truth.any_eq_true, each]
      simp
    have isFalse : Truth.any ts = .false ↔ outcomes ≠ [] ∧ ∀ o ∈ outcomes, o = .ok .false := by
      rw [Truth.any_eq_false, each]
      simp
    rw [h.test_eq_ok each, Except.ok.injEq, Except.ok.injEq, Except.ok.injEq, ← isTrue, ← isFalse]
    refine ⟨Iff.rfl, Iff.rfl, ?_⟩
    cases Truth.any ts <;> decide
  · have empty : outcomes = List.map .ok [] := none
    exact test_not_iterate (h.test_eq_ok empty)

/-- All sizes that a screw is made in. -/
def anySize : Expression :=
  .path (((Path.root "Screw").property "sizes" .composite).any .numeric)

/-- A screw that is made in some sizes. -/
def screwInSizes (sizes : List Value) : Record :=
  Record.ofFields "Screw" [("sizes", .list sizes)]

/-- A size that is no number makes the comparison fail, though the first one is the number looked
for; without sizes nothing is known, nor when it is denied twice. -/
theorem Tests.existential_sizes :
    let e : Expression := .compare .eq anySize (.literal (Sample.int64 5))
    let sizes := [Sample.int64 5, .text "wide", .null]
    let failure : OperandMismatch := ⟨"=", "string", "i64"⟩
    let outcomes := [.ok Truth.true, .error failure, .ok Truth.unknown]
    e.Tests (screwInSizes sizes) outcomes ∧ e.test (screwInSizes sizes) = .error failure ∧
      e.Tests (screwInSizes []) [] ∧
      (Expression.not (Expression.not e)).test (screwInSizes []) = .ok .unknown := by
  intro e sizes failure outcomes
  have candidates : anySize.values (screwInSizes sizes) = .ok sizes := rfl
  have noCandidates : anySize.values (screwInSizes []) = .ok [] := rfl
  have tests : e.Tests (screwInSizes sizes) outcomes := .compare candidates (values_literal _)
  have testsNothing : e.Tests (screwInSizes []) [] := .compare noCandidates (values_literal _)
  have first : FailsFirst id outcomes failure :=
    ⟨[.ok .true], .error failure, [.ok .unknown], rfl, by simp, rfl⟩
  exact ⟨tests, (tests.existential.2.1 failure).mpr first, testsNothing,
    testsNothing.existential.2.2.2 rfl 2⟩

end Expression

end EntityQuery
