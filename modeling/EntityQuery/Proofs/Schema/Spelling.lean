import EntityQuery.Proofs.Condition.Selector

/-!
# Spellings of a path

An index in a selector may have a sign and leading zeros, so several selectors can spell the same
segments (`SpelledAlike`). They are then selectors for the same path, and there are no others: the
names and indices of the segments can be read off the steps of a path, behind each name an element
if the field is a collection (`ResolvedField.segments_of_steps`). So two selectors of a root have
one path exactly if they are spelled alike (`Config.path_eq_iff`).
-/

namespace EntityQuery

/-- Two selectors spell the same segments, each with the same name and the same index. -/
def SpelledAlike (a b : String) : Prop :=
  ∃ segments, List.Forall₂ Segment.Spells (a.toList.splitOn '.') segments ∧
    List.Forall₂ Segment.Spells (b.toList.splitOn '.') segments

/-- A text spells one list of segments at most. -/
theorem Segment.spells_unique {pieces : List (List Char)} {ss ss' : List Segment}
    (h : List.Forall₂ Spells pieces ss) (h' : List.Forall₂ Spells pieces ss') : ss = ss' := by
  induction h generalizing ss' with
  | nil =>
    cases h'
    rfl
  | cons first _ ih =>
    cases h' with
    | cons first' rest' =>
      have same := (read_eq_ok.mpr first).symm.trans (read_eq_ok.mpr first')
      rw [Except.ok.inj same, ih rest']

/-! ## Steps and segments -/

namespace ResolvedField

variable {field field' : ResolvedField} {fields fields' : List ResolvedField}

/-- Only the element of a collection is named by an index. -/
def Indexable (field : ResolvedField) : Prop := field.index.isSome → field.type.isCollection

theorem elementStep_injective (h : field.elementStep = field'.elementStep) :
    field.index = field'.index := by
  unfold elementStep at h
  split at h <;> split at h <;> simp_all

theorem elementStep_ne_property (field : ResolvedField) (name : String) :
    field.elementStep ≠ .property name := by
  unfold elementStep
  split <;> nofun

/-- The steps of a field begin with its name. -/
theorem exists_steps_eq (field : ResolvedField) :
    ∃ rest, field.steps = .property field.name :: rest := by
  unfold steps
  split
  · exact ⟨_, rfl⟩
  · exact ⟨_, rfl⟩

theorem elementStep_not_head (field : ResolvedField) (rest : List PathStep) :
    field.elementStep :: rest ≠ fields.flatMap steps := by
  intro same
  cases fields with
  | nil => cases same
  | cons next fields =>
    obtain ⟨behind, hsteps⟩ := next.exists_steps_eq
    rw [List.flatMap_cons, hsteps, List.cons_append, List.cons.injEq] at same
    exact field.elementStep_ne_property _ same.1

/-- From the steps of a path the segments can be read off again, since an index of a field is told
by its own step. Only where an index stands on a field that has none would two segments have the
same steps. -/
theorem segment_of_steps (h : field.Indexable) (h' : field'.Indexable)
    (same : field.steps ++ fields.flatMap steps = field'.steps ++ fields'.flatMap steps) :
    field.segment = field'.segment ∧ fields.flatMap steps = fields'.flatMap steps := by
  have none {f : ResolvedField} (indexable : f.Indexable) (single : ¬f.type.isCollection) :
      f.index = none :=
    Option.not_isSome_iff_eq_none.mp (mt indexable single)
  unfold steps at same
  rw [segment, segment, Segment.mk.injEq]
  split at same
  · split at same
    · simp only [List.cons_append, List.nil_append, List.cons.injEq,
        PathStep.property.injEq] at same
      exact ⟨⟨same.1, elementStep_injective same.2.1⟩, same.2.2⟩
    · simp only [List.cons_append, List.nil_append, List.cons.injEq] at same
      exact absurd same.2 (elementStep_not_head _ _)
  · split at same
    · simp only [List.cons_append, List.nil_append, List.cons.injEq] at same
      exact absurd same.2.symm (elementStep_not_head _ _)
    · next single single' =>
      simp only [List.cons_append, List.nil_append, List.cons.injEq,
        PathStep.property.injEq] at same
      exact ⟨⟨same.1, (none h single).trans (none h' single').symm⟩, same.2⟩

/-- The segments of fields can be read off the steps through them. A field begins with the step to
its name, and what follows up to the next name tells its index, or that it has none. -/
theorem segments_of_steps (h : ∀ field ∈ fields, field.Indexable)
    (h' : ∀ field ∈ fields', field.Indexable)
    (same : fields.flatMap steps = fields'.flatMap steps) :
    fields.map segment = fields'.map segment := by
  induction fields generalizing fields' with
  | nil =>
    cases fields' with
    | nil => rfl
    | cons field' fields' =>
      obtain ⟨rest, hsteps⟩ := field'.exists_steps_eq
      rw [List.flatMap_cons, hsteps] at same
      cases same
  | cons field fields ih =>
    cases fields' with
    | nil =>
      obtain ⟨rest, hsteps⟩ := field.exists_steps_eq
      rw [List.flatMap_cons, hsteps] at same
      cases same
    | cons field' fields' =>
      rw [List.flatMap_cons, List.flatMap_cons] at same
      rw [List.forall_mem_cons] at h h'
      obtain ⟨first, rest⟩ := segment_of_steps h.1 h'.1 same
      rw [List.map_cons, List.map_cons, first, ih h.2 h'.2 rest]

end ResolvedField

/-- In a chain that resolves only collections have an index. -/
theorem Catalog.Chain.indexable {c : Catalog} {root : String} {fields : List ResolvedField}
    (h : c.Chain root fields) : ∀ field ∈ fields, field.Indexable := by
  induction h with
  | nil => exact List.forall_mem_nil _
  | snoc _ _ found ih =>
    intro field mem
    obtain mem | mem := List.mem_append.mp mem
    · exact ih field mem
    · exact List.mem_singleton.mp mem ▸ found.indexable

/-! ## Paths of selectors -/

namespace Config

variable {enums : List EnumType} {entities : List EntityType} {config : Config}
  {root a b : String} {p q : Path} {leaf leaf' : ResolvedField}

/-- Two selectors of a root have one path exactly if they are spelled alike. -/
theorem path_eq_iff (built : Catalog.build enums entities = .ok config.catalog)
    (registry : config.registry = .withAdded []) (ha : config.resolvePath root a = .ok (p, leaf))
    (hb : config.resolvePath root b = .ok (q, leaf')) : p = q ↔ SpelledAlike a b := by
  obtain ⟨s, hs, hp, -⟩ := resolvePath_eq_ok.mp ha
  obtain ⟨s', hs', hq, -⟩ := resolvePath_eq_ok.mp hb
  have resolves := (Catalog.exists_resolve_iff built).mp ⟨s, hs, rfl⟩
  have resolves' := (Catalog.exists_resolve_iff built).mp ⟨s', hs', rfl⟩
  rw [registry] at hp hq
  constructor
  · intro same
    have steps : s.fields.flatMap ResolvedField.steps = s'.fields.flatMap ResolvedField.steps := by
      have through := Registry.steps_extendAll hp
      rw [same, Registry.steps_extendAll hq] at through
      exact through.symm
    -- only collections are indexed, so the steps tell the segments apart
    have segments := ResolvedField.segments_of_steps resolves.chain.indexable
      resolves'.chain.indexable steps
    exact ⟨_, resolves.spelled, segments ▸ resolves'.spelled⟩
  · rintro ⟨segments, spelled, spelled'⟩
    have same := Segment.spells_unique resolves.spelled spelled
    have again : config.catalog.Resolves root b s.fields :=
      ⟨resolves.known, same ▸ spelled', resolves.chain⟩
    obtain ⟨s'', hs'', fields⟩ := (Catalog.exists_resolve_iff built).mpr again
    cases hs'.symm.trans hs''
    have roots : s.root = s'.root :=
      (Catalog.leads_of_resolve hs).1.trans (Catalog.leads_of_resolve hs').1.symm
    rw [Registry.pathOf, ← roots, fields] at hq
    exact Except.ok.inj (hp.symm.trans hq)

end Config

end EntityQuery
