import EntityQuery.Proofs.Failure
import EntityQuery.Request.Draft

/-!
# Compiling drafts

A draft compiles when its entity is known and each of its parts compiles, and its window is the last
part to be looked at (`CompilesTo.build_eq`). So the parts of a draft that compiles are known to
compile with any other window as well (`compilesTo_of_build`).
-/

namespace EntityQuery.Draft

variable {config : Config} {d : Draft} {r : Request}

/-- A draft takes all rows: it has neither a window nor an offset or a size of its own. -/
structure Unbounded (d : Draft) : Prop where
  window : d.window = none
  offset : d.offset = none
  size : d.size = none

/-- The parts of a draft compile to those of a request, all but the window. -/
structure CompilesTo (config : Config) (d : Draft) (r : Request) : Prop where
  known : (config.catalog.entity? d.entity).isSome
  predicate : compileCondition config d.entity d.condition = .ok r.predicate
  projection : compileSelection config d.entity d.selection = .ok r.projection
  ordering : compileOrdering config d.entity d.sort = .ok r.ordering
  entity : r.entity = d.entity

/-- The offset and the size that a draft takes from its window, where it has none of its own. -/
def bound (d : Draft) (r : Request) (window : Option Window) : Request :=
  { r with
    offset := d.offset <|> window.map (·.offset)
    size := d.size <|> window.map (·.size) }

theorem outside_eq_ok {α : Type} {x : Except QueryError α} {a : α} :
    outside x = .ok a ↔ x = .ok a := by
  cases x with
  | error cause => exact iff_of_false nofun nofun
  | ok b => rw [outside, Except.mapError, Except.ok.injEq, Except.ok.injEq]

/-- Once the other parts of a draft are compiled, the window decides. -/
theorem CompilesTo.build_eq (h : CompilesTo config d r) :
    d.build config = (outside (d.window.mapM compileWindow)).map (d.bound r) := by
  obtain ⟨known, predicate, projection, ordering, entity⟩ := h
  have declared : (config.catalog.entity? d.entity).isNone = false := by
    rw [← Option.not_isSome, known]
    rfl
  rw [build, declared, predicate, projection, ordering]
  cases outside (d.window.mapM compileWindow) with
  | error error => rfl
  | ok window =>
    rw [← entity]
    rfl

/-- A draft that compiles has parts that do. -/
theorem compilesTo_of_build (built : d.build config = .ok r) : CompilesTo config d r := by
  rw [build] at built
  split at built
  · cases built
  · next known =>
    obtain ⟨predicate, hpredicate, built⟩ := bind_eq_ok.mp built
    obtain ⟨projection, hprojection, built⟩ := bind_eq_ok.mp built
    obtain ⟨ordering, hordering, built⟩ := bind_eq_ok.mp built
    obtain ⟨window, -, built⟩ := bind_eq_ok.mp built
    cases built
    exact ⟨Option.isSome_iff_ne_none.mpr (mt Option.isNone_iff_eq_none.mpr known), hpredicate,
      outside_eq_ok.mp hprojection, outside_eq_ok.mp hordering, rfl⟩

/-- A draft that takes all rows compiles to a request that does. -/
theorem Unbounded.request (unbounded : d.Unbounded) (built : d.build config = .ok r) :
    r.offset = none ∧ r.size = none := by
  have compiled := (compilesTo_of_build built).build_eq
  rw [unbounded.window, built] at compiled
  have same : r = d.bound r none := Except.ok.inj compiled
  rw [same, bound, unbounded.offset, unbounded.size]
  exact ⟨rfl, rfl⟩

end EntityQuery.Draft
