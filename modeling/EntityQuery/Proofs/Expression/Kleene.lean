import EntityQuery.Proofs.Expression.Candidates
import EntityQuery.Proofs.Expression.Joining
import Mathlib.Logic.Relation

/-!
# The laws of the connectives

Predicates obey the laws of Kleene's logic, and they do so with their failures: every part of a
conjunction or a disjunction is evaluated, so that a law which keeps the order in which parts occur
first keeps the failure that is met first (`joinOutcomes`).

By the law of double negation and those of De Morgan, a negation moves inwards until it stands in
front of a part that is not put together by connectives (`Expression.Pushes`). Moving it does not
change what a predicate is of any record. It comes to an end in one way only: the expression without
negations further out, the negation normal form, is unique (`Expression.test_laws`).
-/

namespace EntityQuery

open EntityQuery.Filter (Junction)

/-- The other way to join. -/
def Filter.Junction.dual : Junction → Junction
  | .and => .or
  | .or => .and

variable {r : Record} {j : Junction} {e a b n : Expression}

/-! ## Truths -/

namespace Truth

theorem not_not (t : Truth) : t.not.not = t := by
  cases t <;> rfl

/-- De Morgan's law, for both connectives at once. -/
theorem not_joinTruths (j : Junction) (t u : Truth) :
    (joinTruths j t u).not = joinTruths j.dual t.not u.not := by
  cases j <;> cases t <;> cases u <;> rfl

/-- Each connective distributes over the other, also with the unknown. -/
theorem joinTruths_distrib (j : Junction) (t u v : Truth) :
    joinTruths j t (joinTruths j.dual u v) =
      joinTruths j.dual (joinTruths j t u) (joinTruths j t v) := by
  cases j <;> cases t <;> cases u <;> cases v <;> rfl

theorem joinTruths_self (j : Junction) (t : Truth) : joinTruths j t t = t := by
  cases j <;> cases t <;> rfl

end Truth

/-! ## Outcomes -/

section Outcomes

variable (x y z : Except OperandMismatch Truth)

/-- Both outcomes are needed, the first one first. -/
def joinOutcomes (j : Junction) (x y : Except OperandMismatch Truth) :
    Except OperandMismatch Truth :=
  x >>= fun t => y.map (joinTruths j t)

theorem map_not_not : (x.map Truth.not).map Truth.not = x := by
  cases x with
  | error m => rfl
  | ok t => exact congrArg Except.ok t.not_not

/-- De Morgan's law holds of outcomes as well, for the failures stay where they are. -/
theorem map_not_joinOutcomes :
    (joinOutcomes j x y).map Truth.not =
      joinOutcomes j.dual (x.map Truth.not) (y.map Truth.not) := by
  cases x with
  | error m => rfl
  | ok t =>
    cases y with
    | error m => rfl
    | ok u => exact congrArg Except.ok (Truth.not_joinTruths j t u)

/-- Outcomes are joined associatively: the leftmost failure is the same in either grouping. -/
theorem joinOutcomes_assoc :
    joinOutcomes j (joinOutcomes j x y) z = joinOutcomes j x (joinOutcomes j y z) := by
  cases x with
  | error m => rfl
  | ok t =>
    cases y with
    | error m => rfl
    | ok u =>
      cases z with
      | error m => rfl
      | ok v => exact congrArg Except.ok (Truth.joinTruths_assoc j t u v)

/-- On the right the first outcome is needed twice, but has not failed when it is needed again. -/
theorem joinOutcomes_distrib :
    joinOutcomes j x (joinOutcomes j.dual y z) =
      joinOutcomes j.dual (joinOutcomes j x y) (joinOutcomes j x z) := by
  cases x with
  | error m => rfl
  | ok t =>
    cases y with
    | error m => rfl
    | ok u =>
      cases z with
      | error m => rfl
      | ok v => exact congrArg Except.ok (Truth.joinTruths_distrib j t u v)

theorem joinOutcomes_self : joinOutcomes j x x = x := by
  cases x with
  | error m => rfl
  | ok t => exact congrArg Except.ok (Truth.joinTruths_self j t)

end Outcomes

namespace Expression

/-- A junction is evaluated on both sides, and the failure of the left one comes first. -/
theorem test_logical (j : Junction) (left right : Expression) :
    (logical j left right).test r = joinOutcomes j (left.test r) (right.test r) := by
  change (left.test r >>= fun t => right.test r >>= fun u => .ok (joinTruths j t u)) = _
  unfold joinOutcomes
  cases right.test r <;> rfl

/-! ## Negations that move inwards -/

/-- An expression that is not put together by connectives. -/
def IsAtom : Expression → Prop
  | .logical _ _ _ => False
  | .not _ => False
  | _ => True

/-- An induction along the connectives alone. -/
theorem connectives_induct {P : Expression → Prop} (atom : ∀ e, e.IsAtom → P e)
    (not : ∀ e, P e → P (.not e)) (logical : ∀ j a b, P a → P b → P (.logical j a b)) :
    ∀ e, P e := by
  intro e
  induction e with
  | logical j a b iha ihb => exact logical j a b iha ihb
  | not e ih => exact not e ih
  | _ => exact atom _ trivial

/-- Two negations vanish, or one moves into what it stands in front of, anywhere among the
connectives. -/
inductive Pushes : Expression → Expression → Prop
  | twice (e : Expression) : Pushes (.not (.not e)) e
  | through (j : Junction) (a b : Expression) :
    Pushes (.not (.logical j a b)) (.logical j.dual (.not a) (.not b))
  | operand {a b : Expression} (h : Pushes a b) : Pushes (.not a) (.not b)
  | left {a b : Expression} (j : Junction) (c : Expression) (h : Pushes a b) :
    Pushes (.logical j a c) (.logical j b c)
  | right {a b : Expression} (j : Junction) (c : Expression) (h : Pushes a b) :
    Pushes (.logical j c a) (.logical j c b)

/-- Negations stand in front of atoms only. -/
inductive NegationNormal : Expression → Prop
  | atom {e : Expression} (h : e.IsAtom) : NegationNormal e
  | negated {e : Expression} (h : e.IsAtom) : NegationNormal (.not e)
  | logical {a b : Expression} (j : Junction) (ha : NegationNormal a) (hb : NegationNormal b) :
    NegationNormal (.logical j a b)

/-- A step leaves a predicate as it is. -/
theorem Pushes.test_eq (h : Pushes a b) : b.test r = a.test r := by
  induction h with
  | twice e => rw [test_not, test_not, map_not_not]
  | through j a b =>
    rw [test_not, test_logical, test_logical, test_not, test_not, map_not_joinOutcomes]
  | operand _ ih => rw [test_not, test_not, ih]
  | left j c _ ih => rw [test_logical, test_logical, ih]
  | right j c _ ih => rw [test_logical, test_logical, ih]

/-- So do any number of steps. -/
theorem test_eq_of_pushes (h : Relation.ReflTransGen Pushes a b) : b.test r = a.test r := by
  induction h with
  | refl => rfl
  | tail _ step ih => rw [step.test_eq, ih]

/-- Negations can be pushed inwards on both sides of a junction, one after the other. -/
theorem pushes_logical {a' b' : Expression} (j : Junction)
    (ha : Relation.ReflTransGen Pushes a a') (hb : Relation.ReflTransGen Pushes b b') :
    Relation.ReflTransGen Pushes (logical j a b) (logical j a' b') :=
  (ha.lift (logical j · b) fun _ _ => Pushes.left j b).trans
    (hb.lift (logical j a') fun _ _ => Pushes.right j a')

/-! ## The normal form -/

/-- An expression, or its negation. -/
def signed (positive : Bool) (e : Expression) : Expression :=
  if positive then e else .not e

/-- The negation normal form of an expression, or of its negation. -/
def normalForm (positive : Bool) : Expression → Expression
  | .not e => normalForm (!positive) e
  | .logical j a b =>
    .logical (if positive then j else j.dual) (normalForm positive a) (normalForm positive b)
  | e => e.signed positive

/-- At an atom the normal form stops, with or without a negation. -/
theorem IsAtom.normalForm_eq (h : e.IsAtom) (positive : Bool) :
    e.normalForm positive = e.signed positive := by
  cases e with
  | logical | not => cases h
  | _ => rfl

/-- The normal form has negations in front of atoms only. -/
theorem negationNormal_normalForm (e : Expression) :
    ∀ positive, (e.normalForm positive).NegationNormal := by
  induction e using connectives_induct with
  | atom e h =>
    intro positive
    rw [h.normalForm_eq]
    cases positive with
    | true => exact .atom h
    | false => exact .negated h
  | not e ih => exact fun positive => ih !positive
  | logical j a b iha ihb => exact fun positive => .logical _ (iha positive) (ihb positive)

/-- An expression in normal form is its own normal form. -/
theorem NegationNormal.normalForm_eq (h : e.NegationNormal) : e.normalForm true = e := by
  induction h with
  | atom h => exact h.normalForm_eq true
  | negated h => exact h.normalForm_eq false
  | logical j _ _ iha ihb => rw [normalForm, iha, ihb, if_pos rfl]

/-- A step leaves the normal form as it is. So all ways of moving negations inwards end in the same
expression. -/
theorem Pushes.normalForm_eq (h : Pushes a b) :
    ∀ positive, b.normalForm positive = a.normalForm positive := by
  induction h with
  | twice e =>
    intro positive
    rw [normalForm, normalForm, Bool.not_not]
  | through j a b =>
    intro positive
    cases positive with
    | true => rfl
    | false => cases j <;> rfl
  | operand _ ih =>
    intro positive
    rw [normalForm, normalForm, ih]
  | left j c _ ih =>
    intro positive
    rw [normalForm, normalForm, ih]
  | right j c _ ih =>
    intro positive
    rw [normalForm, normalForm, ih]

/-- The normal form is reached by pushing negations inwards, one step at a time. Each step keeps the
meaning, so the normal form has it too. -/
theorem reaches_normalForm (e : Expression) :
    ∀ positive, Relation.ReflTransGen Pushes (e.signed positive) (e.normalForm positive) := by
  induction e using connectives_induct with
  | atom e h =>
    intro positive
    rw [h.normalForm_eq]
  | not e ih =>
    intro positive
    cases positive with
    | true => exact ih false
    | false => exact .head (.twice e) (ih true)
  | logical j a b iha ihb =>
    intro positive
    have inside := pushes_logical (if positive then j else j.dual) (iha positive) (ihb positive)
    cases positive with
    | true => exact inside
    | false => exact .head (.through j a b) inside

/-- Where negations can move no further, they have come to the normal form, and they can always
come there. -/
theorem pushes_to_normal_iff :
    Relation.ReflTransGen Pushes e n ∧ n.NegationNormal ↔ n = e.normalForm true := by
  constructor
  · rintro ⟨steps, normal⟩
    have same : n.normalForm true = e.normalForm true := by
      clear normal
      induction steps with
      | refl => rfl
      | tail _ step ih => rw [step.normalForm_eq, ih]
    rw [← same, normal.normalForm_eq]
  · rintro rfl
    exact ⟨e.reaches_normalForm true, e.negationNormal_normalForm true⟩

/-- The laws of double negation, De Morgan, associativity, distributivity and idempotence, of truths
and failures alike; and an expression has one negation normal form, which is the same predicate. -/
theorem test_laws (r : Record) (j : Junction) (a b c : Expression) :
    (Expression.not (Expression.not a)).test r = a.test r ∧
    (Expression.not (logical j a b)).test r =
      (logical j.dual (Expression.not a) (Expression.not b)).test r ∧
    (logical j (logical j a b) c).test r = (logical j a (logical j b c)).test r ∧
    (logical j a (logical j.dual b c)).test r =
      (logical j.dual (logical j a b) (logical j a c)).test r ∧
    (logical j a a).test r = a.test r ∧
    (∀ n, Relation.ReflTransGen Pushes a n ∧ n.NegationNormal ↔ n = a.normalForm true) ∧
    (a.normalForm true).test r = a.test r := by
  refine ⟨(Pushes.twice a).test_eq.symm, (Pushes.through j a b).test_eq.symm, ?_, ?_, ?_,
    fun n => pushes_to_normal_iff, test_eq_of_pushes (a.reaches_normalForm true)⟩
  · simp only [test_logical, joinOutcomes_assoc]
  · simp only [test_logical, joinOutcomes_distrib]
  · rw [test_logical, joinOutcomes_self]

end Expression

end EntityQuery
