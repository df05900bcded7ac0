import EntityQuery.Proofs.Failure
import EntityQuery.Proofs.Schema.Conformance
import EntityQuery.Schema.Declaration

/-!
# Fields of a built catalog

In a catalog that is built from declarations every name that is used is declared, and the
supertypes of every type run out. The lineage of a type is therefore the type itself and the
lineage of its supertype, and the field that is found under a name is the one of the nearest type
that declares it (`findField_eq_some`). A field that leads to an entity leads to a declared one
(`entity?_of_navigable?`).
-/

namespace EntityQuery.Catalog

variable {enums : List EnumType} {entities : List EntityType} {c : Catalog}
  {name entity parent : String} {t owner : EntityType} {field : Field}

/-! ## What is checked -/

/-- A catalog is built of its declarations as they are, once all checks pass. -/
theorem build_eq_ok :
    build enums entities = .ok c ↔
      c = ⟨enums, entities⟩ ∧ c.checkNames = .ok () ∧
        (∀ t ∈ c.entities, c.checkSupertype t = .ok () ∧ c.checkFields t = .ok ()) ∧
        ∀ t ∈ c.entities, c.checkCycle t = .ok () := by
  simp only [build, bind_eq_ok, forM_eq_ok]
  constructor
  · rintro ⟨⟨⟩, names, ⟨⟩, references, ⟨⟩, cycles, ⟨⟩⟩
    refine ⟨rfl, names, fun t ht => ?_, cycles⟩
    obtain ⟨⟨⟩, supertype, fields⟩ := references t ht
    exact ⟨supertype, fields⟩
  · rintro ⟨rfl, names, references, cycles⟩
    exact ⟨⟨⟩, names, ⟨⟩, fun t ht => ⟨⟨⟩, references t ht⟩, ⟨⟩, cycles, rfl⟩

theorem mem_of_entity? (h : c.entity? name = some t) : t ∈ c.entities ∧ t.name = name := by
  have named := List.find?_some h
  exact ⟨List.mem_of_find?_eq_some h, of_decide_eq_true named⟩

/-- In a built catalog the walk up from any type ends within the number of types. So the bound of
the walks is never what ends them. -/
theorem runsOut_of_build (built : build enums entities = .ok c) (h : c.entity? name = some t) :
    c.runsOut c.entities.length name := by
  obtain ⟨mem, rfl⟩ := mem_of_entity? h
  have checked := (build_eq_ok.mp built).2.2.2 t mem
  unfold checkCycle at checked
  split at checked
  · next ends => exact ends
  · cases checked

/-! ## Lineages -/

variable {steps : Nat}

theorem ancestry_of_unknown (ht : c.entity? name = none) : c.ancestry (steps + 1) name = [] := by
  rw [ancestry, ht]

theorem ancestry_of_top (ht : c.entity? name = some t) (hp : t.supertype = none) :
    c.ancestry (steps + 1) name = [t] := by
  rw [ancestry, ht]
  dsimp only
  rw [hp]

theorem ancestry_of_supertype (ht : c.entity? name = some t) (hp : t.supertype = some parent) :
    c.ancestry (steps + 1) name = t :: c.ancestry steps parent := by
  rw [ancestry, ht]
  dsimp only
  rw [hp]

theorem runsOut_of_supertype (ht : c.entity? name = some t) (hp : t.supertype = some parent)
    (h : c.runsOut (steps + 1) name) : c.runsOut steps parent := by
  rw [runsOut, ht, Option.bind_some, hp] at h
  exact h

/-- Once the supertypes have run out, a further step finds no more of them. -/
theorem ancestry_of_runsOut (h : c.runsOut steps name) :
    c.ancestry (steps + 1) name = c.ancestry steps name := by
  induction steps generalizing name with
  | zero => cases h
  | succ steps ih =>
    cases ht : c.entity? name with
    | none => rw [ancestry_of_unknown ht, ancestry_of_unknown ht]
    | some t =>
      cases hp : t.supertype with
      | none => rw [ancestry_of_top ht hp, ancestry_of_top ht hp]
      | some parent =>
        rw [ancestry_of_supertype ht hp, ancestry_of_supertype ht hp,
          ih (runsOut_of_supertype ht hp h)]

theorem exists_length_eq_succ (ht : c.entity? name = some t) :
    ∃ steps, c.entities.length = steps + 1 :=
  Nat.exists_eq_add_one_of_ne_zero (Nat.ne_of_gt (List.length_pos_of_mem (mem_of_entity? ht).1))

theorem lineage_of_top (ht : c.entity? name = some t) (hp : t.supertype = none) :
    c.lineage name = [t] := by
  obtain ⟨steps, count⟩ := exists_length_eq_succ ht
  rw [lineage, count, ancestry_of_top ht hp]

/-- The lineage of a type is the type and the lineage of its supertype. -/
theorem lineage_of_supertype (built : build enums entities = .ok c)
    (ht : c.entity? name = some t) (hp : t.supertype = some parent) :
    c.lineage name = t :: c.lineage parent := by
  obtain ⟨steps, count⟩ := exists_length_eq_succ ht
  have ends := runsOut_of_build built ht
  rw [count] at ends
  rw [lineage, lineage, count, ancestry_of_supertype ht hp,
    ancestry_of_runsOut (runsOut_of_supertype ht hp ends)]

/-! ## Fields -/

/-- The field of a name that is seen on a type: the one that the type itself declares, or else the
one that is seen on its supertype. -/
inductive Sees (c : Catalog) (name : String) : String → EntityType → Field → Prop
  | own {entity : String} {t : EntityType} {field : Field} (ht : c.entity? entity = some t)
    (declared : t.field? name = some field) : Sees c name entity t field
  | inherited {entity parent : String} {t owner : EntityType} {field : Field}
    (ht : c.entity? entity = some t) (undeclared : t.field? name = none)
    (hp : t.supertype = some parent) (h : Sees c name parent owner field) :
    Sees c name entity owner field

/-- A field that is found along the supertypes is seen from the type: it is declared by the first of
them that declares one of its name. -/
theorem sees_of_fieldAlong (h : fieldAlong name (c.ancestry steps entity) = some (owner, field)) :
    c.Sees name entity owner field := by
  induction steps generalizing entity with
  | zero => cases h
  | succ steps ih =>
    cases ht : c.entity? entity with
    | none =>
      rw [ancestry_of_unknown ht] at h
      cases h
    | some t =>
      cases hp : t.supertype with
      | none =>
        rw [ancestry_of_top ht hp, fieldAlong] at h
        split at h
        · next declared =>
          cases h
          exact .own ht declared
        · cases h
      | some parent =>
        rw [ancestry_of_supertype ht hp, fieldAlong] at h
        split at h
        · next declared =>
          cases h
          exact .own ht declared
        · next undeclared => exact .inherited ht undeclared hp (ih h)

/-- In a built catalog the field that is found is the one that is seen: that of the nearest type
that declares the name. -/
theorem findField_eq_some (built : build enums entities = .ok c) :
    c.findField entity name = some (owner, field) ↔ c.Sees name entity owner field := by
  refine ⟨sees_of_fieldAlong, fun h => ?_⟩
  induction h with
  | @own entity t field ht declared =>
    rw [findField]
    cases hp : t.supertype with
    | none => rw [lineage_of_top ht hp, fieldAlong, declared]
    | some parent => rw [lineage_of_supertype built ht hp, fieldAlong, declared]
  | inherited ht undeclared hp _ ih =>
    rw [findField, lineage_of_supertype built ht hp, fieldAlong, undeclared]
    exact ih

/-- No field is found exactly when none is seen along the whole line. -/
theorem findField_eq_none (built : build enums entities = .ok c) :
    c.findField entity name = none ↔ ∀ owner field, ¬ c.Sees name entity owner field := by
  simp only [← findField_eq_some built, Option.eq_none_iff_forall_not_mem, Prod.forall,
    Option.mem_def]

/-! ## References -/

/-- The type that sees a field is declared, and so is the one that owns it. -/
theorem Sees.declared (h : c.Sees name entity owner field) :
    (c.entity? entity).isSome ∧ owner ∈ c.entities ∧ field ∈ owner.fields := by
  induction h with
  | own ht declared =>
    exact ⟨Option.isSome_of_eq_some ht, (mem_of_entity? ht).1, List.mem_of_find?_eq_some declared⟩
  | inherited ht undeclared hp h ih => exact ⟨Option.isSome_of_eq_some ht, ih.2⟩

/-- A type that leads to an entity refers to it. -/
theorem entity?_of_checkReferences {type : String} {fieldType : FieldType} {next : String}
    (h : c.checkReferences type name fieldType = .ok ())
    (on : fieldType.navigable? = some next) : (c.entity? next).isSome := by
  have known : c.checkReferences type name (.entity next) = .ok () := by
    unfold FieldType.navigable? at on
    split at on
    · cases on
      exact h
    · cases on
      exact h
    · cases on
  rw [checkReferences] at known
  split at known
  · next declared => exact declared
  · cases known

/-- A field of a built catalog leads to a declared entity, if it leads to one at all. -/
theorem entity?_of_navigable? (built : build enums entities = .ok c)
    (h : c.Sees name entity owner field) {next : String}
    (on : field.type.navigable? = some next) : (c.entity? next).isSome := by
  obtain ⟨-, mem, own⟩ := h.declared
  have checked := forM_eq_ok.mp ((build_eq_ok.mp built).2.2.1 owner mem).2 field own
  exact entity?_of_checkReferences checked on

end EntityQuery.Catalog
