import EntityQuery.Proofs.Schema.Lineage
import Mathlib.Data.List.Nodup
import Mathlib.Logic.Relation

/-!
# Exactly the catalogs that fit together

Declarations make a catalog when they are `WellDeclared`: every name is declared once, every name
that is used is declared, however deep in a collection it is used, and no type inherits from itself
(`exists_build_iff`). Each check is first read as the rule that it decides.

That no type inherits from itself is said without a walk: there is no cycle in the transitive
closure of `Extends`. The check follows supertypes for as many steps as there are types. On a cycle
no number of steps is enough, for each step needs one less than the one before it
(`runsOut_of_inherits`). Off a cycle the types that are passed are all different, so there are no
more of them than there are types (`runsOut_of_acyclic`).
-/

namespace EntityQuery

/-- A type occurs in a field type: it is the type itself, or occurs in that of its elements. -/
inductive FieldType.Within (inner : FieldType) : FieldType → Prop
  | self : Within inner inner
  | element {kind : CollectionKind} {element : FieldType} (h : Within inner element) :
    Within inner (.collection kind element)

/-- In what is no collection of elements nothing else occurs. -/
theorem FieldType.within_iff_eq {inner t : FieldType} (h : t.element? = none) :
    inner.Within t ↔ inner = t := by
  constructor
  · intro within
    cases within with
    | self => rfl
    | element _ => cases h
  · rintro rfl
    exact .self

/-- Within a collection there are the collection itself and what is within its elements. -/
theorem FieldType.within_collection_iff {inner element : FieldType} {kind : CollectionKind} :
    inner.Within (.collection kind element) ↔
      inner = .collection kind element ∨ inner.Within element := by
  constructor
  · intro h
    cases h with
    | self => exact .inl rfl
    | element h => exact .inr h
  · rintro (rfl | h)
    · exact .self
    · exact .element h

theorem FieldType.Within.trans {t u v : FieldType} (h : t.Within u) (h' : u.Within v) :
    t.Within v := by
  induction h' with
  | self => exact h
  | element _ ih => exact .element ih

namespace Catalog

/-- A type is declared with a supertype. -/
def Extends (c : Catalog) (name parent : String) : Prop :=
  ∃ t ∈ c.entities, t.name = name ∧ t.supertype = some parent

/-- A type has another one as a direct or indirect supertype. -/
abbrev Inherits (c : Catalog) : String → String → Prop := Relation.TransGen c.Extends

/-- Declarations that fit together. -/
structure WellDeclared (c : Catalog) : Prop where
  enums : (c.enums.map (·.name)).Nodup
  entities : (c.entities.map (·.name)).Nodup
  apart : ∀ t ∈ c.entities, ∀ e ∈ c.enums, t.name ≠ e.name
  supertypes : ∀ t ∈ c.entities, ∀ parent, t.supertype = some parent →
    parent ∈ c.entities.map (·.name)
  entityReferences : ∀ t ∈ c.entities, ∀ field ∈ t.fields, ∀ name,
    (FieldType.entity name).Within field.type → name ∈ c.entities.map (·.name)
  enumReferences : ∀ t ∈ c.entities, ∀ field ∈ t.fields, ∀ name,
    (FieldType.enumeration name).Within field.type → name ∈ c.enums.map (·.name)
  acyclic : ∀ name, ¬c.Inherits name name

variable {enums : List EnumType} {entities : List EntityType} {c : Catalog}
  {name parent : String} {t : EntityType}

/-! ## Names -/

/-- A type is known when it is declared. -/
theorem isSome_entity?_iff : (c.entity? name).isSome ↔ name ∈ c.entities.map (·.name) := by
  rw [entity?, List.find?_isSome, List.mem_map]
  simp only [decide_eq_true_eq]

theorem isSome_enum?_iff : (c.enum? name).isSome ↔ name ∈ c.enums.map (·.name) := by
  rw [enum?, List.find?_isSome, List.mem_map]
  simp only [decide_eq_true_eq]

/-- With names that are not repeated each declared type is the one that is found under its name. -/
theorem entity?_of_mem (unique : (c.entities.map (·.name)).Nodup) (ht : t ∈ c.entities) :
    c.entity? t.name = some t := by
  obtain ⟨u, hu⟩ := Option.isSome_iff_exists.mp
    (isSome_entity?_iff.mpr (List.mem_map_of_mem ht))
  obtain ⟨mem, same⟩ := mem_of_entity? hu
  rw [hu, List.inj_on_of_nodup_map unique mem ht same]

/-- Names pass the check when none is repeated and none is taken already. -/
theorem firstRepeated_eq_none {taken names : List String} :
    firstRepeated taken names = none ↔ names.Nodup ∧ ∀ name ∈ names, name ∉ taken := by
  induction names generalizing taken with
  | nil => exact iff_of_true rfl ⟨.nil, nofun⟩
  | cons name names ih =>
    rw [firstRepeated, List.nodup_cons, List.forall_mem_cons]
    split
    · next repeated => exact iff_of_false nofun fun ⟨_, fresh, _⟩ => fresh repeated
    · next fresh =>
      rw [ih]
      constructor
      · rintro ⟨distinct, apart⟩
        refine ⟨⟨fun again => ?_, distinct⟩, fresh, fun other mem => ?_⟩
        · exact apart name again List.mem_cons_self
        · exact List.not_mem_of_not_mem_cons (apart other mem)
      · rintro ⟨⟨once, distinct⟩, -, apart⟩
        refine ⟨distinct, fun other mem again => ?_⟩
        obtain rfl | before := List.mem_cons.mp again
        · exact once mem
        · exact apart other mem before

/-- The names of enumerations and of types are different, each among themselves and from each
other. -/
theorem checkNames_eq_ok :
    c.checkNames = .ok () ↔ (c.enums.map (·.name)).Nodup ∧ (c.entities.map (·.name)).Nodup ∧
      ∀ t ∈ c.entities, ∀ e ∈ c.enums, t.name ≠ e.name := by
  have enumNames : firstRepeated [] (c.enums.map (·.name)) = none ↔
      (c.enums.map (·.name)).Nodup :=
    firstRepeated_eq_none.trans (and_iff_left nofun)
  have entityNames : firstRepeated (c.enums.map (·.name)) (c.entities.map (·.name)) = none ↔
      (c.entities.map (·.name)).Nodup ∧ ∀ t ∈ c.entities, ∀ e ∈ c.enums, t.name ≠ e.name := by
    rw [firstRepeated_eq_none, List.forall_mem_map]
    refine and_congr_right fun _ => forall₂_congr fun t _ => ?_
    rw [List.mem_map]
    exact ⟨fun apart e he same => apart ⟨e, he, same.symm⟩,
      fun apart ⟨e, he, same⟩ => apart e he same.symm⟩
  rw [← entityNames, ← enumNames]
  unfold checkNames
  dsimp only
  split
  · next repeated => exact iff_of_false nofun fun ⟨fine, _⟩ => nomatch repeated.symm.trans fine
  · next enumsFine =>
    split
    · next repeated => exact iff_of_false nofun fun ⟨_, fine⟩ => nomatch repeated.symm.trans fine
    · next entitiesFine => exact iff_of_true rfl ⟨enumsFine, entitiesFine⟩

/-! ## References -/

/-- A supertype is declared. -/
theorem checkSupertype_eq_ok :
    c.checkSupertype t = .ok () ↔
      ∀ parent, t.supertype = some parent → parent ∈ c.entities.map (·.name) := by
  unfold checkSupertype
  split
  · next top => exact iff_of_true rfl fun parent hp => nomatch top.symm.trans hp
  · next parent hp =>
    rw [hp]
    simp only [Option.some.injEq, forall_eq', ← isSome_entity?_iff]
    split
    · next declared => exact iff_of_true rfl declared
    · next undeclared => exact iff_of_false (by rintro ⟨⟩) undeclared

/-- All names that a type refers to, at any depth, are declared. The check goes into the elements of
collections, as the types themselves do. -/
theorem checkReferences_eq_ok {type field : String} {ft : FieldType} :
    c.checkReferences type field ft = .ok () ↔
      (∀ name, (FieldType.entity name).Within ft → name ∈ c.entities.map (·.name)) ∧
        ∀ name, (FieldType.enumeration name).Within ft → name ∈ c.enums.map (·.name) := by
  induction ft with
  | collection kind element ih =>
    rw [checkReferences, ih]
    simp only [FieldType.within_collection_iff, reduceCtorEq, false_or]
  | entity other =>
    simp only [checkReferences, FieldType.within_iff_eq (t := .entity other) rfl,
      FieldType.entity.injEq, reduceCtorEq, forall_eq, false_imp_iff, forall_const, and_true,
      ← isSome_entity?_iff]
    split
    · next declared => exact iff_of_true rfl declared
    · next undeclared => exact iff_of_false (by rintro ⟨⟩) undeclared
  | enumeration other =>
    simp only [checkReferences, FieldType.within_iff_eq (t := .enumeration other) rfl,
      FieldType.enumeration.injEq, reduceCtorEq, forall_eq, false_imp_iff, forall_const, true_and,
      ← isSome_enum?_iff]
    split
    · next declared => exact iff_of_true rfl declared
    · next undeclared => exact iff_of_false (by rintro ⟨⟩) undeclared
  | _ =>
    refine iff_of_true rfl ⟨fun name within => ?_, fun name within => ?_⟩
    · cases within
    · cases within

/-- Whatever the type of a field refers to, at any depth of its collections, is declared. -/
theorem checkFields_eq_ok :
    c.checkFields t = .ok () ↔ ∀ field ∈ t.fields,
      (∀ name, (FieldType.entity name).Within field.type → name ∈ c.entities.map (·.name)) ∧
        ∀ name, (FieldType.enumeration name).Within field.type → name ∈ c.enums.map (·.name) := by
  simp only [checkFields, forM_eq_ok, checkReferences_eq_ok]

/-! ## Supertypes -/

variable {steps : Nat}

/-- Of types that are declared once, a step of the walk is the supertype that is declared. -/
theorem extends_iff (unique : (c.entities.map (·.name)).Nodup) :
    c.Extends name parent ↔ (c.entity? name).bind (·.supertype) = some parent := by
  rw [Option.bind_eq_some_iff]
  constructor
  · rintro ⟨t, ht, rfl, hp⟩
    exact ⟨t, entity?_of_mem unique ht, hp⟩
  · rintro ⟨t, ht, hp⟩
    obtain ⟨mem, named⟩ := mem_of_entity? ht
    exact ⟨t, mem, named, hp⟩

/-- A walk up from a type that ends goes on to end, with fewer steps, from its supertype. -/
theorem runsOut_of_extends (unique : (c.entities.map (·.name)).Nodup)
    (h : c.Extends name parent) (ends : c.runsOut steps name) :
    ∃ fewer < steps, c.runsOut fewer parent := by
  cases steps with
  | zero => cases ends
  | succ fewer =>
    rw [runsOut, (extends_iff unique).mp h] at ends
    exact ⟨fewer, Nat.lt_succ_self fewer, ends⟩

/-- The walk from a supertype takes fewer steps. -/
theorem runsOut_of_inherits (unique : (c.entities.map (·.name)).Nodup)
    (h : c.Inherits name parent) (ends : c.runsOut steps name) :
    ∃ fewer < steps, c.runsOut fewer parent := by
  induction h with
  | single h => exact runsOut_of_extends unique h ends
  | tail _ h ih =>
    obtain ⟨fewer, lt, ends⟩ := ih
    obtain ⟨fewest, lt', ends⟩ := runsOut_of_extends unique h ends
    exact ⟨fewest, Nat.lt_trans lt' lt, ends⟩

/-- A walk that ends has not started on a cycle. -/
theorem not_inherits_of_runsOut (unique : (c.entities.map (·.name)).Nodup)
    (ends : c.runsOut steps name) : ¬c.Inherits name name := by
  intro cycle
  induction steps using Nat.strongRecOn with
  | ind steps ih =>
    obtain ⟨fewer, lt, ends⟩ := runsOut_of_inherits unique cycle ends
    exact ih fewer lt ends

/-- Where no type inherits from itself, the walk ends after so many steps as there are types that
it has not passed. -/
theorem runsOut_of_acyclic (h : c.WellDeclared) {passed : List String} (distinct : passed.Nodup)
    (declared : passed ⊆ c.entities.map (·.name)) (below : ∀ lower ∈ passed, c.Inherits lower name)
    (here : name ∈ c.entities.map (·.name)) (enough : c.entities.length ≤ passed.length + steps) :
    c.runsOut steps name := by
  induction steps generalizing passed name with
  | zero =>
    -- the type in hand would be one more than there are
    have fresh : name ∉ passed := fun again => h.acyclic name (below name again)
    have count := (List.nodup_cons.mpr ⟨fresh, distinct⟩).length_le_of_subset
      (List.cons_subset.mpr ⟨here, declared⟩)
    rw [List.length_cons, List.length_map] at count
    omega
  | succ steps ih =>
    rw [runsOut]
    cases hp : (c.entity? name).bind (·.supertype) with
    | none => rfl
    | some parent =>
      have fresh : name ∉ passed := fun again => h.acyclic name (below name again)
      have distinctHere : (name :: passed).Nodup := List.nodup_cons.mpr ⟨fresh, distinct⟩
      have step : c.Extends name parent := (extends_iff h.entities).mpr hp
      have next : parent ∈ c.entities.map (·.name) := by
        obtain ⟨t, ht, -, hparent⟩ := step
        exact h.supertypes t ht parent hparent
      refine ih distinctHere (List.cons_subset.mpr ⟨here, declared⟩) ?_ next ?_
      · exact List.forall_mem_cons.mpr ⟨.single step, fun lower mem => (below lower mem).tail step⟩
      · rw [List.length_cons]
        omega

/-- A type is in no cycle when the walk up from it ends within as many steps as there are types. -/
theorem checkCycle_eq_ok : c.checkCycle t = .ok () ↔ c.runsOut c.entities.length t.name := by
  unfold checkCycle
  split
  · next ends => exact iff_of_true rfl ends
  · next turns => exact iff_of_false nofun turns

/-! ## Declarations -/

/-- A list of declarations makes a catalog exactly when they fit together. The checks stop at the
first that fails, but which one that is plays no part in whether there is one. -/
theorem exists_build_iff :
    (∃ c, build enums entities = .ok c) ↔ WellDeclared ⟨enums, entities⟩ := by
  simp only [build_eq_ok, exists_eq_left, checkNames_eq_ok, checkSupertype_eq_ok,
    checkFields_eq_ok, checkCycle_eq_ok]
  constructor
  · rintro ⟨⟨enumNames, entityNames, apart⟩, references, cycles⟩
    exact {
      enums := enumNames
      entities := entityNames
      apart := apart
      supertypes := fun t ht => (references t ht).1
      entityReferences := fun t ht field hf => ((references t ht).2 field hf).1
      enumReferences := fun t ht field hf => ((references t ht).2 field hf).2
      acyclic := fun name cycle => by
        obtain ⟨parent, ⟨t, ht, rfl, -⟩, -⟩ := Relation.TransGen.head'_iff.mp cycle
        exact not_inherits_of_runsOut entityNames (cycles t ht) cycle }
  · intro h
    refine ⟨⟨h.enums, h.entities, h.apart⟩, fun t ht => ⟨h.supertypes t ht, fun field hf =>
      ⟨h.entityReferences t ht field hf, h.enumReferences t ht field hf⟩⟩, fun t ht => ?_⟩
    exact runsOut_of_acyclic h .nil (List.nil_subset _) nofun (List.mem_map_of_mem ht)
      (Nat.le_add_left _ _)

end Catalog

end EntityQuery
