import EntityQuery.Expression.Evaluation
import EntityQuery.Proofs.Failure

/-!
# The candidates of an expression

A predicate tests the candidates of its operands one by one, and only through them does it depend
on these operands. A path has several candidates only where it goes through all elements of a
collection: without such a step there is one at most, of any record whatever
(`Path.length_candidates`), and the same holds of its lower case.
-/

namespace EntityQuery

variable {r : Record} {e : Expression} {p : Path}

/-! ## Paths that are not multi-valued -/

/-- A step that does not fan out leads from one value to one at most. -/
theorem PathStep.length_follow {step : PathStep} (h : step ≠ .any) (v : Value) :
    (step.follow v).length ≤ 1 := by
  unfold PathStep.follow
  split
  · exact Nat.le_refl 1
  · exact absurd rfl h
  · exact Option.length_toList_le
  · exact Nat.zero_le 1

theorem PathStep.length_followAll {steps : List PathStep} (h : .any ∉ steps) {values : List Value}
    (single : values.length ≤ 1) : (followAll steps values).length ≤ 1 := by
  induction steps generalizing values with
  | nil => exact single
  | cons step steps ih =>
    obtain ⟨here, further⟩ := not_or.mp (mt List.mem_cons.mpr h)
    refine ih further ?_
    match values, single with
    | [], _ => exact Nat.zero_le 1
    | [v], _ =>
      rw [List.flatMap_singleton]
      exact step.length_follow (Ne.symm here) v

/-- A path that is not multi-valued has one value at most, whatever the record is. Nothing is asked
of the record: a path that does not fit it has none. -/
theorem Path.length_candidates (h : p.isMultiValued = false) (r : Record) :
    (p.candidates r).length ≤ 1 := by
  rw [isMultiValued, List.contains_eq_mem, decide_eq_false_iff_not] at h
  unfold candidates
  split
  · exact Nat.zero_le 1
  · exact PathStep.length_followAll h (Nat.le_refl 1)

/-! ## Expressions by their candidates -/

namespace Expression

/-- A comparison relates all pairs of values of its sides, the left ones first, and is true if one
pair is. -/
theorem test_compare (relation : Relation) (left right : Expression) :
    (compare relation left right).test r =
      left.values r >>= fun ls => right.values r >>= fun rs =>
        (Evaluation.pairs ls rs).mapM (fun pair => relation.apply pair.1 pair.2) >>=
          fun outcomes => .ok (Truth.any outcomes) := rfl

/-- A check looks at all values of its operand. -/
theorem test_check (k : Check) (e : Expression) :
    (check k e).test r =
      e.values r >>= fun vs => vs.mapM k.apply >>= fun outcomes => .ok (Truth.any outcomes) := rfl

/-- A membership looks each value up in the list; this cannot fail. -/
theorem test_member (e : Expression) (items : List Value) (negated : Bool) :
    (member e items negated).test r =
      e.values r >>= fun vs => vs.mapM (fun v => .ok (v.memberOf items negated)) >>=
        fun outcomes => .ok (Truth.any outcomes) := rfl

/-- A negation passes on failures and the unknown. -/
theorem test_not (e : Expression) : (Expression.not e).test r = (e.test r).map Truth.not := rfl

theorem values_path {ws : List Value} (h : p.candidates r = ws) : (path p).values r = .ok ws :=
  congrArg Except.ok h

theorem values_literal (v : Value) : (literal v).values r = .ok [v] := rfl

/-- Lowering is done value by value, and fails with the first value that has no text. -/
theorem values_lower (e : Expression) :
    (lower e).values r = (e.values r).bind (·.mapM Value.lower) := rfl

/-- A comparison with one value is made for each candidate. -/
theorem test_compare_to {relation : Relation} {left right : Expression} {v : Value}
    (h : right.values r = .ok [v]) :
    (compare relation left right).test r =
      left.values r >>= fun ws => ws.mapM (relation.apply · v) >>=
        fun outcomes => .ok (Truth.any outcomes) := by
  have pairs (ws : List Value) : Evaluation.pairs ws [v] = ws.map (·, v) :=
    List.map_eq_flatMap.symm
  simp only [test_compare, h, ok_bind, pairs, List.mapM_map]
  rfl

/-- A comparison with no candidate is unknown. -/
theorem test_compare_of_none {relation : Relation} {v : Value} (h : e.values r = .ok []) :
    (compare relation e (literal v)).test r = .ok .unknown := by
  rw [test_compare_to (values_literal v), h]
  rfl

/-- A comparison with one candidate is the comparison of this candidate. -/
theorem test_compare_of_single {relation : Relation} {v w : Value} (h : e.values r = .ok [w]) :
    (compare relation e (literal v)).test r = relation.apply w v := by
  rw [test_compare_to (values_literal v), h, ok_bind, mapM_cons_eq]
  cases relation.apply w v <;> rfl

/-- An expression has one candidate at most. -/
def SingleValued (r : Record) (e : Expression) : Prop :=
  ∀ vs, e.values r = .ok vs → vs.length ≤ 1

theorem singleValued_path (h : p.isMultiValued = false) : (path p).SingleValued r := by
  rintro vs ⟨⟩
  exact p.length_candidates h r

theorem singleValued_literal (v : Value) : (literal v).SingleValued r := by
  rintro vs ⟨⟩
  exact Nat.le_refl 1

/-- Lowering does not add values. -/
theorem SingleValued.lower (h : e.SingleValued r) : (Expression.lower e).SingleValued r := by
  intro ws hws
  obtain ⟨vs, hvs, lowered⟩ := bind_eq_ok.mp ((values_lower e).symm.trans hws)
  rw [← (mapM_eq_ok.mp lowered).length_eq]
  exact h vs hvs

end Expression

end EntityQuery
