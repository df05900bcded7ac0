import EntityQuery.Proofs.Schema.Declaration
import EntityQuery.Sample

/-!
# Walks along supertypes

A field is looked for, and the fields of a type are gathered, by a loop: as long as there is a type
in hand, look at it and go on with its supertype. Nothing in the loop bounds it. `Seeks` and
`Gathers` are the runs of the two loops, with the number of types that are looked at; a run is
finite, so there is one exactly when the loop ends.

In a built catalog both loops end from every type, after at most as many steps as there are types,
with the results of `findField` and `allFields` (`build_validates`).
-/

namespace EntityQuery.Catalog

/-- The type behind a type on the walk: its supertype, if that is declared. -/
def above (c : Catalog) (t : EntityType) : Option EntityType := t.supertype.bind c.entity?

/-- The loop that looks for a field, from the type in hand on: after so many steps it ends with a
result. It stops at the first type that declares the field. -/
inductive Seeks (c : Catalog) (name : String) :
    Option EntityType → Nat → Option (EntityType × Field) → Prop
  | ended : Seeks c name none 0 none
  | found {t : EntityType} {field : Field} (declared : t.field? name = some field) :
    Seeks c name (some t) 1 (some (t, field))
  | further {t : EntityType} {steps : Nat} {result : Option (EntityType × Field)}
    (undeclared : t.field? name = none) (rest : Seeks c name (c.above t) steps result) :
    Seeks c name (some t) (steps + 1) result

/-- The loop that gathers the types on the walk, from the type in hand on. -/
inductive Gathers (c : Catalog) : Option EntityType → Nat → List EntityType → Prop
  | ended : Gathers c none 0 []
  | further {t : EntityType} {steps : Nat} {ts : List EntityType}
    (rest : Gathers c (c.above t) steps ts) : Gathers c (some t) (steps + 1) (t :: ts)

variable {enums : List EnumType} {entities : List EntityType} {c : Catalog} {name : String}
  {current : Option EntityType} {steps : Nat} {ts : List EntityType}

theorem above_of_top {t : EntityType} (hp : t.supertype = none) : c.above t = none := by
  rw [above, hp]
  rfl

/-- Above a type stands its supertype. -/
theorem above_of_supertype {t : EntityType} {parent : String} (hp : t.supertype = some parent) :
    c.above t = c.entity? parent := by
  rw [above, hp]
  rfl

/-- The search goes along the types of the walk, and no further. -/
theorem Gathers.seeks (h : c.Gathers current steps ts) (name : String) :
    ∃ fewer ≤ steps, c.Seeks name current fewer (fieldAlong name ts) := by
  induction h with
  | ended => exact ⟨0, Nat.le_refl 0, .ended⟩
  | @further t steps ts _ ih =>
    rw [fieldAlong]
    cases hf : t.field? name with
    | some field => exact ⟨1, Nat.le_add_left 1 steps, .found hf⟩
    | none =>
      obtain ⟨fewer, le, seeks⟩ := ih
      exact ⟨fewer + 1, Nat.succ_le_succ le, .further hf seeks⟩

/-- A walk that ends within some steps has gathered the ancestry of the type. -/
theorem gathers_of_runsOut (ends : c.runsOut steps name) :
    ∃ taken ≤ steps, c.Gathers (c.entity? name) taken (c.ancestry steps name) := by
  induction steps generalizing name with
  | zero => cases ends
  | succ steps ih =>
    cases ht : c.entity? name with
    | none =>
      rw [ancestry_of_unknown ht]
      exact ⟨0, Nat.zero_le _, .ended⟩
    | some t =>
      cases hp : t.supertype with
      | none =>
        rw [ancestry_of_top ht hp]
        exact ⟨1, Nat.le_add_left 1 steps, .further (above_of_top hp ▸ .ended)⟩
      | some parent =>
        obtain ⟨taken, le, gathers⟩ := ih (runsOut_of_supertype ht hp ends)
        rw [ancestry_of_supertype ht hp]
        exact ⟨taken + 1, Nat.succ_le_succ le, .further (above_of_supertype hp ▸ gathers)⟩

/-- A type that is not declared has no line. -/
theorem lineage_of_unknown (ht : c.entity? name = none) : c.lineage name = [] := by
  rw [lineage]
  cases c.entities.length with
  | zero => rfl
  | succ steps => exact ancestry_of_unknown ht

/-- The walk from a name of a built catalog ends, and has gathered the lineage of the type. -/
theorem gathers_lineage (built : build enums entities = .ok c) (name : String) :
    ∃ taken ≤ c.entities.length, c.Gathers (c.entity? name) taken (c.lineage name) := by
  cases ht : c.entity? name with
  | none =>
    rw [lineage_of_unknown ht]
    exact ⟨0, Nat.zero_le _, .ended⟩
  | some t =>
    rw [← ht]
    exact gathers_of_runsOut (runsOut_of_build built ht)

/-- Declarations make a catalog exactly when they fit together. From every type of the catalog that
they make, and for every field, the walks along the supertypes end, after at most as many steps as
there are types. -/
theorem build_validates (enums : List EnumType) (entities : List EntityType) :
    ((∃ c, build enums entities = .ok c) ↔ WellDeclared ⟨enums, entities⟩) ∧
      ∀ c, build enums entities = .ok c → c = ⟨enums, entities⟩ ∧ ∀ type : String,
        (∃ steps ≤ entities.length, ∃ ts, c.Gathers (c.entity? type) steps ts ∧
          c.allFields type = ts.reverse.flatMap (·.fields)) ∧
        ∀ field, ∃ steps ≤ entities.length,
          c.Seeks field (c.entity? type) steps (c.findField type field) := by
  refine ⟨exists_build_iff, fun c built => ?_⟩
  obtain ⟨rfl, -⟩ := build_eq_ok.mp built
  refine ⟨rfl, fun type => ?_⟩
  obtain ⟨taken, le, gathers⟩ := gathers_lineage built type
  refine ⟨⟨taken, le, _, gathers, rfl⟩, fun field => ?_⟩
  obtain ⟨fewer, le', seeks⟩ := gathers.seeks field
  exact ⟨fewer, Nat.le_trans le' le, seeks⟩

theorem build_validates_sample :
    WellDeclared Sample.catalog ∧ ∃ steps ≤ 4,
      Sample.catalog.Seeks "id" (Sample.catalog.entity? "Car") steps
        (Sample.catalog.findField "Car" "id") := by
  obtain ⟨decides, ends⟩ := build_validates Sample.enums Sample.entities
  have built := Sample.build_eq_catalog
  exact ⟨decides.mp ⟨_, built⟩, ((ends _ built).2 "Car").2 "id"⟩

/-- A cycle is found from a type that is not on it. -/
example :
    (build [] [⟨"A", some "B", []⟩, ⟨"B", some "C", []⟩, ⟨"C", some "B", []⟩]).isOk = false := by
  decide +kernel

end EntityQuery.Catalog
