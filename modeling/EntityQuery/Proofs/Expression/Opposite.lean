import EntityQuery.Proofs.Expression.Candidates

/-!
# Predicates that are the negation of each other

Two predicates are opposite on a record when one is the negation of the other in three-valued
logic, or when both fail. Some pairs of operators are opposite on every value. A predicate holds
when it does for one candidate, so that opposite operators make opposite predicates only where
there is one candidate at most (`Opposite.any`).
-/

namespace EntityQuery

variable {r : Record} {e : Expression}

/-- Two outcomes of which one is the negation of the other, or which are both failures. -/
inductive Opposite : Except OperandMismatch Truth → Except OperandMismatch Truth → Prop
  | failure (m m' : OperandMismatch) : Opposite (.error m) (.error m')
  | truth (t : Truth) : Opposite (.ok t) (.ok t.not)

namespace Opposite

variable {outcome outcome' : Except OperandMismatch Truth}

theorem map_not (outcome : Except OperandMismatch Truth) :
    Opposite outcome (outcome.map Truth.not) := by
  cases outcome with
  | error m => exact .failure m m
  | ok t => exact .truth t

/-- Opposite outcomes fail together. -/
theorem error_iff (h : Opposite outcome outcome') :
    (∃ m, outcome = .error m) ↔ ∃ m, outcome' = .error m := by
  cases h with
  | failure m m' => exact iff_of_true ⟨m, rfl⟩ ⟨m', rfl⟩
  | truth t => exact iff_of_false (by rintro ⟨m, ⟨⟩⟩) (by rintro ⟨m, ⟨⟩⟩)

/-- Where they do not fail, each is the negation of the other. -/
theorem eq_ok (h : Opposite outcome outcome') {t : Truth} (ok : outcome = .ok t) :
    outcome' = .ok t.not := by
  cases h with
  | failure m m' => cases ok
  | truth t =>
    cases ok
    rfl

theorem ofBool (b : Bool) : Opposite (.ok (.ofBool b)) (.ok (.ofBool !b)) := by
  cases b with
  | true => exact .truth .true
  | false => exact .truth .false

/-- Opposite tests have opposite disjunctions over one candidate, or none. Over several they need
not: both tests may hold for some candidate. -/
theorem any {α : Type} {test test' : α → Except OperandMismatch Truth} {xs : List α}
    (single : xs.length ≤ 1) (each : ∀ a, Opposite (test a) (test' a)) :
    Opposite (xs.mapM test >>= fun outcomes => .ok (Truth.any outcomes))
      (xs.mapM test' >>= fun outcomes => .ok (Truth.any outcomes)) := by
  match xs, single with
  | [], _ => exact .truth .unknown
  | [a], _ =>
    have here := each a
    simp only [mapM_cons_eq]
    generalize test a = outcome at here
    generalize test' a = outcome' at here
    cases here with
    | failure m m' => exact .failure m m'
    | truth t => exact .truth t

end Opposite

/-! ## Operators -/

/-- A comparison and the one that holds exactly where it does not. -/
inductive Relation.Opposes : Relation → Relation → Prop
  | equality : Opposes .eq .ne
  | above : Opposes .gt .le
  | below : Opposes .lt .ge

namespace Relation.Opposes

variable {relation relation' : Relation}

/-- Relations that have an opposite are no text tests; these are negated as a whole. -/
theorem textTest? (h : relation.Opposes relation') :
    relation.textTest? = none ∧ relation'.textTest? = none := by
  cases h <;> exact ⟨rfl, rfl⟩

/-- Of two values that can be compared one of two opposite relations holds. -/
theorem holdsOf (h : relation.Opposes relation') (o : Ordering) :
    relation'.holdsOf o = !relation.holdsOf o := by
  cases h <;> cases o <;> rfl

/-- Opposite relations are opposite on all values: what is a mismatch or unknown for one is so for
the other. -/
theorem apply (h : relation.Opposes relation') (left right : Value) :
    Opposite (relation.apply left right) (relation'.apply left right) := by
  obtain ⟨order, order'⟩ := h.textTest?
  rw [Relation.apply, Relation.apply, order, order']
  split
  · exact .truth .unknown
  · cases left.compare right with
    | none => exact .failure _ _
    | some o =>
      dsimp only
      rw [h.holdsOf]
      exact .ofBool _

end Relation.Opposes

/-- A check and the one that holds exactly where it does not. -/
inductive Check.Opposes : Check → Check → Prop
  | null : Opposes .isNull .isNotNull
  | empty : Opposes .isEmpty .isNotEmpty
  | truth : Opposes .isTrue .isFalse

/-- The two checks for emptiness fail on the same values. -/
theorem Value.emptiness_opposite (v : Value) (k k' : Check) :
    Opposite (v.emptiness k) ((v.emptiness k').map Truth.not) := by
  cases v with
  | null => exact .truth .unknown
  | text s => exact .map_not (.ok _)
  | list items => exact .map_not (.ok _)
  | _ => exact .failure _ _

theorem Check.Opposes.apply {k k' : Check} (h : k.Opposes k') (v : Value) :
    Opposite (k.apply v) (k'.apply v) := by
  cases h with
  | null => exact .ofBool v.isNull
  | empty => exact v.emptiness_opposite .isEmpty .isNotEmpty
  | truth => exact .map_not v.truth

/-- A value is in a list or not in it, unless it is null. -/
theorem Value.memberOf_opposite (items : List Value) (v : Value) :
    Opposite (.ok (v.memberOf items false)) (.ok (v.memberOf items true)) := by
  unfold Value.memberOf
  split
  · exact .truth .unknown
  · rw [Bool.bne_false, Bool.bne_true]
    exact .ofBool _

/-! ## Predicates -/

namespace Expression

/-- Comparisons by opposite relations are opposite, provided there is one value on either side. With
several, both may be true. -/
theorem compare_opposite {relation relation' : Relation} (h : relation.Opposes relation')
    {left right : Expression} (hl : left.SingleValued r) (hr : right.SingleValued r) :
    Opposite ((compare relation left right).test r) ((compare relation' left right).test r) := by
  rw [test_compare, test_compare]
  cases hls : left.values r with
  | error m => exact .failure m m
  | ok ls =>
    cases hrs : right.values r with
    | error m => exact .failure m m
    | ok rs =>
      refine Opposite.any ?_ fun pair => h.apply pair.1 pair.2
      match ls, hl _ hls, rs, hr _ hrs with
      | [], _, rs, _ => exact Nat.zero_le 1
      | [l], _, [], _ => exact Nat.zero_le 1
      | [l], _, [r], _ => exact Nat.le_refl 1

/-- So are opposite checks. -/
theorem check_opposite {k k' : Check} (h : k.Opposes k') (single : e.SingleValued r) :
    Opposite ((check k e).test r) ((check k' e).test r) := by
  rw [test_check, test_check]
  cases hvs : e.values r with
  | error m => exact .failure m m
  | ok vs => exact .any (single vs hvs) h.apply

/-- So are the two kinds of membership. -/
theorem member_opposite (items : List Value) (single : e.SingleValued r) :
    Opposite ((member e items false).test r) ((member e items true).test r) := by
  rw [test_member, test_member]
  cases hvs : e.values r with
  | error m => exact .failure m m
  | ok vs => exact .any (single vs hvs) (Value.memberOf_opposite items)

/-- A predicate and its negation are opposite, however many values there are. -/
theorem not_opposite (e : Expression) : Opposite (e.test r) ((Expression.not e).test r) := by
  rw [test_not]
  exact .map_not _

end Expression

end EntityQuery
