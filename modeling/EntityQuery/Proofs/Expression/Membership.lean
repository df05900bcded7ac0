import EntityQuery.Proofs.Expression.Candidates
import EntityQuery.Proofs.Expression.Joining
import EntityQuery.Sample

/-!
# Membership and equality

Membership in a list of values could be said without a form of its own, as the disjunction of the
comparisons with each value (`Expression.equalsOneOf`). Of an expression with one candidate at most,
and where none of the comparisons fails, both are the same as long as the list holds no null: a
comparison with null is unknown, while membership passes over a null item as over any other that is
not the value.

So they part in one case only: the list holds a null and none of its items is the value. Then the
disjunction is unknown, since the null might be the value; but membership is false, and its opposite
is true (`member_eq_equalsOneOf_iff`).
-/

namespace EntityQuery

variable {r : Record} {e : Expression} {v w : Value} {vs items : List Value}

/-! ## One candidate and the items -/

namespace Value

/-- Nothing can be compared with null. -/
theorem compare_null (w : Value) : w.compare .null = none := by
  cases w <;> rfl

/-- Whether a value is an item, if that can be known. -/
def itemTruth (w v : Value) : Truth :=
  if v.isNull then .unknown else .ofBool (w.compare v = some .eq)

/-- A value that can be compared with an item is the item, or it is not; with a null item this is
not known. -/
theorem apply_eq_itemTruth (known : w.isNull = false)
    (fine : ∃ t, Relation.eq.apply w v = .ok t) : Relation.eq.apply w v = .ok (w.itemTruth v) := by
  obtain ⟨t, ht⟩ := fine
  rw [ht]
  simp only [Relation.apply, known, Bool.false_or, Relation.textTest?] at ht
  unfold itemTruth
  by_cases null : v.isNull
  · rw [if_pos null] at ht ⊢
    exact ht.symm
  · rw [if_neg null] at ht ⊢
    cases ordered : w.compare v with
    | none =>
      rw [ordered] at ht
      cases ht
    | some o =>
      rw [ordered] at ht
      simpa [Relation.holdsOf] using ht.symm

/-- No value is a null item. -/
theorem itemTruth_eq_true_iff : w.itemTruth v = .true ↔ w.compare v = some .eq := by
  unfold itemTruth
  by_cases null : v.isNull
  · have isNull : v = .null := by
      cases v with
      | null => rfl
      | _ => cases null
    simp [isNull, compare_null, Value.isNull]
  · by_cases same : w.compare v = some .eq <;> simp [null, same, Truth.ofBool]

/-- Only a null that is looked for is unknown. A null in the list is not, which is the difference to
a chain of comparisons. -/
theorem itemTruth_eq_unknown_iff : w.itemTruth v = .unknown ↔ v.isNull = true := by
  unfold itemTruth
  by_cases null : v.isNull
  · simp [null]
  · by_cases same : w.compare v = some .eq <;> simp [null, same, Truth.ofBool]

/-- Membership of a known value is known. -/
theorem memberOf_eq (known : w.isNull = false) (negated : Bool) :
    w.memberOf items negated =
      .ofBool ((items.any fun item => w.compare item = some .eq) != negated) := by
  rw [memberOf, known, if_neg Bool.false_ne_true]

/-- The disjunction over the items says the same as membership, save that it does not know what
a null is. -/
theorem anyOne_itemTruth (w : Value) (items : List Value) :
    Truth.anyOne (items.map w.itemTruth) =
      if (items.any fun item => w.compare item = some .eq) then .true
      else if (items.any isNull) then .unknown else .false := by
  have found : Truth.true ∈ items.map w.itemTruth ↔
      (items.any fun item => w.compare item = some .eq) = true := by
    simp [itemTruth_eq_true_iff]
  have unsettled : Truth.unknown ∈ items.map w.itemTruth ↔ items.any isNull = true := by
    simp [itemTruth_eq_unknown_iff]
  simp only [Truth.anyOne, found, unsettled]

end Value

/-! ## Expressions -/

namespace Expression

/-- The comparison of an expression with a value for equality. -/
def equals (e : Expression) (v : Value) : Expression := compare .eq e (literal v)

/-- The disjunction of the comparisons with each of some values. -/
def equalsOneOf (e : Expression) (v : Value) (vs : List Value) : Expression :=
  (vs.map e.equals).foldl (logical .or) (e.equals v)

/-- The disjunction is unknown or known as the truths of its comparisons say together. -/
theorem test_equalsOneOf (e : Expression) (v : Value) (vs : List Value) :
    (e.equalsOneOf v vs).test r =
      ((v :: vs).mapM fun u => (e.equals u).test r).map Truth.anyOne := by
  rw [equalsOneOf, test_foldl_logical]
  exact congrArg _ (List.mapM_map (l := v :: vs))

/-- A chain of comparisons is true when one of them is, and otherwise unknown when one of them
is. -/
theorem test_equalsOneOf_of_each (truth : Value → Truth)
    (each : ∀ u ∈ v :: vs, (e.equals u).test r = .ok (truth u)) :
    (e.equalsOneOf v vs).test r = .ok (Truth.anyOne ((v :: vs).map truth)) := by
  rw [test_equalsOneOf, mapM_eq_ok_map each]
  rfl

/-- Membership of an expression without a candidate is unknown. -/
theorem test_member_of_none (h : e.values r = .ok []) (negated : Bool) :
    (member e items negated).test r = .ok .unknown := by
  rw [test_member, h]
  rfl

/-- Membership of an expression with one candidate is that of the candidate. -/
theorem test_member_of_single (h : e.values r = .ok [w]) (negated : Bool) :
    (member e items negated).test r = .ok (w.memberOf items negated) := by
  rw [test_member, h]
  rfl

/-- An expression whose comparison does not fail has no candidate, a null or a known value. -/
theorem candidate_cases (single : e.SingleValued r) (fine : ∃ t, (e.equals v).test r = .ok t) :
    e.values r = .ok [] ∨ e.values r = .ok [.null] ∨
      ∃ w, w.isNull = false ∧ e.values r = .ok [w] := by
  obtain ⟨t, ht⟩ := fine
  obtain ⟨ws, hws, -⟩ := bind_eq_ok.mp ((test_compare _ _ _).symm.trans ht)
  match ws, single ws hws with
  | [], _ => exact .inl hws
  | [w], _ =>
    cases known : w.isNull with
    | false => exact .inr (.inr ⟨w, known, hws⟩)
    | true =>
      cases w with
      | null => exact .inr (.inl hws)
      | _ => cases known

/-- Of a known value, the disjunction is true, unknown or false. -/
theorem test_equalsOneOf_of_known (known : w.isNull = false) (h : e.values r = .ok [w])
    (fine : ∀ u ∈ v :: vs, ∃ t, (e.equals u).test r = .ok t) :
    (e.equalsOneOf v vs).test r =
      .ok (if ((v :: vs).any fun item => w.compare item = some .eq) then .true
        else if ((v :: vs).any Value.isNull) then .unknown else .false) := by
  rw [← Value.anyOne_itemTruth]
  refine test_equalsOneOf_of_each w.itemTruth fun u hu => ?_
  have compared : (e.equals u).test r = Relation.eq.apply w u := test_compare_of_single h
  obtain ⟨t, ht⟩ := fine u hu
  exact compared.trans (Value.apply_eq_itemTruth known ⟨t, compared.symm.trans ht⟩)

/-- Where all comparisons are unknown, their disjunction is. -/
theorem test_equalsOneOf_of_unknown
    (each : ∀ u ∈ v :: vs, (e.equals u).test r = .ok .unknown) :
    (e.equalsOneOf v vs).test r = .ok .unknown := by
  rw [test_equalsOneOf_of_each (fun _ => .unknown) each]
  simp [Truth.anyOne]

/-- Membership in a list, where no comparison with an item fails, is the disjunction of these
comparisons, and its opposite the negation of that, unless the list holds a null and membership is
false. -/
theorem member_eq_equalsOneOf_iff (single : e.SingleValued r)
    (fine : ∀ u ∈ v :: vs, ∃ t, (e.equals u).test r = .ok t) :
    ((member e (v :: vs) false).test r = (e.equalsOneOf v vs).test r ∧
        (member e (v :: vs) true).test r = (Expression.not (e.equalsOneOf v vs)).test r) ↔
      ((∃ u ∈ v :: vs, u.isNull) → (member e (v :: vs) false).test r ≠ .ok .false) := by
  rw [test_not]
  rcases candidate_cases single (fine v List.mem_cons_self) with none | null | ⟨w, known, h⟩
  · have disjunction : (e.equalsOneOf v vs).test r = .ok .unknown :=
      test_equalsOneOf_of_unknown fun u _ => test_compare_of_none none
    simp [test_member_of_none none, disjunction, Except.map, Truth.not]
  · have disjunction : (e.equalsOneOf v vs).test r = .ok .unknown :=
      test_equalsOneOf_of_unknown fun u _ => test_compare_of_single null
    simp [test_member_of_single null, disjunction, Except.map, Truth.not, Value.memberOf,
      Value.isNull]
  · have someNull : (∃ u ∈ v :: vs, u.isNull) ↔ (v :: vs).any Value.isNull = true := by
      rw [List.any_eq_true]
    rw [test_equalsOneOf_of_known known h fine, test_member_of_single h, test_member_of_single h,
      Value.memberOf_eq known, Value.memberOf_eq known, someNull]
    -- an item that is the value settles both; else a null does not settle the disjunction
    cases (v :: vs).any fun item => w.compare item = some .eq with
    | true => simp [Truth.ofBool, Truth.not, Except.map]
    | false =>
      cases (v :: vs).any Value.isNull with
      | true => simp [Truth.ofBool]
      | false => simp [Truth.ofBool, Truth.not, Except.map]

/-- The size of a screw. -/
def screwSize : Expression := .path ((Path.root "Screw").property "size" .numeric)

/-- A screw of a size. -/
def screwOfSize (n : Nat) : Record := Record.ofFields "Screw" [("size", Sample.int64 n)]

/-- A null beside it does not hide a value that is an item: if the value is found the null has no
say. -/
theorem member_eq_equalsOneOf_iff_five :
    let items := [.null, Sample.int64 5]
    (member screwSize (Sample.int64 3 :: items) false).test (screwOfSize 5) =
        (screwSize.equalsOneOf (Sample.int64 3) items).test (screwOfSize 5) ∧
      (member screwSize (Sample.int64 3 :: items) true).test (screwOfSize 5) =
        (Expression.not (screwSize.equalsOneOf (Sample.int64 3) items)).test (screwOfSize 5) := by
  intro items
  have single : screwSize.SingleValued (screwOfSize 5) := singleValued_path rfl
  have fine : ∀ u ∈ Sample.int64 3 :: items,
      ∃ t, (screwSize.equals u).test (screwOfSize 5) = .ok t := by
    intro u hu
    rcases List.mem_cons.mp hu with rfl | hu
    · exact ⟨.false, rfl⟩
    · rcases List.mem_cons.mp hu with rfl | hu
      · exact ⟨.unknown, rfl⟩
      · rw [List.mem_singleton.mp hu]
        exact ⟨.true, rfl⟩
  refine (member_eq_equalsOneOf_iff single fine).mpr fun _ isFalse => ?_
  cases isFalse.symm.trans (show _ = Except.ok Truth.true from rfl)

/-- A size of two is not among one and null, though null might be two. -/
theorem not_member_of_null :
    (member screwSize [Sample.int64 1, .null] true).test (screwOfSize 2) = .ok .true ∧
      (Expression.not (screwSize.equalsOneOf (Sample.int64 1) [.null])).test (screwOfSize 2) =
        .ok .unknown :=
  ⟨rfl, rfl⟩

end Expression

end EntityQuery
