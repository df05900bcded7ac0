import EntityQuery.Proofs.Handler.Builtin

/-!
# Literals are read independently

Every built-in handler reads the literals of a comparison one by one (`ReadsEach`): what is made of
one of them does not depend on those beside it. The handlers of collections hand their literals on
to the handler of the elements, so that this is an induction on the type of the field.

A list of literals is therefore read when each of them alone is, as all their values in order; and
if some cannot be read, the first of these decides on the failure (`Registry.coerce_independent`).
Whether the values come as one or as a list is a matter of their number only.
-/

namespace EntityQuery

variable {c : Catalog} {pattern : Option String} {literal : String} {literals : List String}
  {coerce : List String → Except QueryError Operand} {x : Operand} {e : QueryError}

theorem Operand.exists_ofValues_eq_single_iff {vs : List Value} :
    (∃ v, ofValues vs = .single v) ↔ vs.length = 1 := by
  unfold ofValues
  split
  · next v => exact iff_of_true ⟨v, rfl⟩ rfl
  · next other =>
    refine iff_of_false (by rintro ⟨v, ⟨⟩⟩) fun one => ?_
    obtain ⟨v, rfl⟩ := List.length_eq_one_iff.mp one
    exact other v rfl

/-! ## Reading one by one -/

/-- Literals are read one by one, and their values are kept in order. -/
def ReadsEach (coerce : List String → Except QueryError Operand) : Prop :=
  ∃ read : String → Except QueryError Value,
    ∀ literals, coerce literals = (literals.mapM read).map Operand.ofValues

/-- Reading literals one by one reads each on its own, by construction. -/
theorem readsEach_coerceEach (read : String → Except QueryError Value) :
    ReadsEach (coerceEach read) :=
  ⟨fun literal => if literal = "" then .ok .null else read literal, fun _ => rfl⟩

/-- So does taking them as texts, which never fails. -/
theorem readsEach_ofTexts : ReadsEach fun literals => .ok (Operand.ofTexts literals) := by
  refine ⟨fun literal => .ok (.text literal), fun literals => ?_⟩
  rw [mapM_eq_ok_map fun literal _ => rfl]
  rfl

namespace ReadsEach

/-- What is read of a literal, alone and among others. -/
theorem exists_read (h : ReadsEach coerce) :
    ∃ read : String → Except QueryError Value,
      (∀ literals, coerce literals = (literals.mapM read).map Operand.ofValues) ∧
      ∀ literal, coerce [literal] = (read literal).map .single := by
  obtain ⟨read, together⟩ := h
  refine ⟨read, together, fun literal => ?_⟩
  rw [together, mapM_cons_eq]
  cases read literal <;> rfl

/-- Literals are read when each of them alone is, as the values that they have then. -/
theorem eq_ok_iff (h : ReadsEach coerce) :
    coerce literals = .ok x ↔
      ∃ vs, List.Forall₂ (fun literal v => coerce [literal] = .ok (.single v)) literals vs ∧
        .ofValues vs = x := by
  obtain ⟨read, together, alone⟩ := h.exists_read
  rw [together, map_eq_ok]
  simp only [mapM_eq_ok, alone, map_eq_ok, Operand.single.injEq, exists_eq_right]

/-- Literals fail as the first of them that alone fails. -/
theorem eq_error_iff (h : ReadsEach coerce) :
    coerce literals = .error e ↔ FailsFirst (fun literal => coerce [literal]) literals e := by
  obtain ⟨read, together, alone⟩ := h.exists_read
  rw [together, map_eq_error, mapM_eq_error, ← failsFirst_map Operand.single]
  simp only [alone]

/-- Several literals are read when each of them is. None of them can spoil another, or help it. -/
theorem exists_eq_ok_iff (h : ReadsEach coerce) :
    (∃ x, coerce literals = .ok x) ↔ ∀ literal ∈ literals, ∃ x, coerce [literal] = .ok x := by
  constructor
  · rintro ⟨x, read⟩ literal mem
    obtain ⟨vs, each, -⟩ := h.eq_ok_iff.mp read
    obtain ⟨v, -, hv⟩ := exists_of_mem_forall₂ each mem
    exact ⟨_, hv⟩
  · intro each
    cases read : coerce literals with
    | ok x => exact ⟨x, rfl⟩
    | error e =>
      obtain ⟨literal, mem, e', fails⟩ := exists_failsFirst_iff.mp ⟨e, h.eq_error_iff.mp read⟩
      obtain ⟨x, hx⟩ := each literal mem
      cases hx.symm.trans fails

end ReadsEach

/-! ## The registry -/

namespace Registry

/-- Literals for a field of any type are read one by one. -/
theorem readsEach (c : Catalog) (pattern : Option String) (depth : Nat) (field : ResolvedField) :
    ReadsEach ((withAdded []).coerce c pattern depth field) := by
  obtain ⟨name, index, type, owner, parent⟩ := field
  induction type generalizing index with
  | collection kind element ih =>
    obtain ⟨read, h⟩ := ih none
    exact ⟨read, fun literals => (coerce_element rfl).trans (h literals)⟩
  | rawCollection kind => cases kind <;> exact readsEach_ofTexts
  | entity | custom => exact readsEach_ofTexts
  | _ => exact readsEach_coerceEach _

/-- The literals for a field can be read when each of them alone can. Then there is a value for each
of them, the one that it has alone, and they are one value only if there is one literal. If they
cannot be read, the failure is that of the first literal that alone cannot. -/
theorem coerce_independent (c : Catalog) (pattern : Option String) (depth : Nat)
    (field : ResolvedField) (literals : List String) :
    let coerce := (withAdded []).coerce c pattern depth field
    ((∃ x, coerce literals = .ok x) ↔ ∀ literal ∈ literals, ∃ x, coerce [literal] = .ok x) ∧
    (∀ x, coerce literals = .ok x →
      x.toList.length = literals.length ∧
      (∃ xs, List.Forall₂ (fun literal x => coerce [literal] = .ok x) literals xs ∧
        x.toList = xs.flatMap Operand.toList) ∧
      ((∃ v, x = .single v) ↔ literals.length = 1)) ∧
    ∀ e, coerce literals = .error e ↔ FailsFirst (fun literal => coerce [literal]) literals e := by
  intro coerce
  have each : ReadsEach coerce := readsEach c pattern depth field
  refine ⟨each.exists_eq_ok_iff, fun x hx => ?_, fun e => each.eq_error_iff⟩
  obtain ⟨vs, alone, rfl⟩ := each.eq_ok_iff.mp hx
  have values : (vs.map Operand.single).flatMap Operand.toList = vs := by
    simp only [List.flatMap_map, Operand.toList, List.flatMap_singleton']
  refine ⟨?_, ⟨vs.map .single, ?_, ?_⟩, ?_⟩
  · rw [Operand.toList_ofValues, alone.length_eq]
  · exact List.forall₂_map_right_iff.mpr alone
  · rw [Operand.toList_ofValues, values]
  · rw [alone.length_eq]
    exact Operand.exists_ofValues_eq_single_iff

end Registry

end EntityQuery
