import EntityQuery.Execution.Stage
import EntityQuery.Proofs.Expression.Candidates
import EntityQuery.Proofs.Request.Ordering

/-!
# What fans out

The path of a selector mirrors it. With the built-in handlers a segment gives the property of its
name, and behind it, if the field is a collection, the element of its index or else all elements
(`Path.Mirrors`). The whole path is known field by field (`Registry.pathOf_builtin`), so it is
multi-valued exactly if one of the fields is a collection of which no element is named.

An ordering refuses such a path. It does so for the selector and not for the record: what passes has
one candidate at most in any record (`Path.length_candidates`), and the value of a key is this
candidate or null (`Stage.keyValue_of_single`).
-/

namespace EntityQuery

variable {enums : List EnumType} {entities : List EntityType} {c : Catalog} {config : Config}
  {root selector : String} {s : ResolvedSelector} {p : Path}

/-! ## Paths and selectors -/

/-- A segment goes through all elements of a collection. -/
def ResolvedField.FansOut (field : ResolvedField) : Prop :=
  field.type.isCollection ∧ field.index = none

/-- A path goes through the fields of a selector, from the alias of its root, and has the class of
what it reaches through the last one. -/
structure Path.Mirrors (p : Path) (s : ResolvedSelector) : Prop where
  root : p.rootAlias = Text.lowercase s.root
  steps : p.steps = s.fields.flatMap ResolvedField.steps
  kind : p.kind = s.leaf.reachedClass

/-- A selector resolves, and one of its segments goes through all elements of a collection. -/
def Catalog.FansOut (c : Catalog) (root selector : String) : Prop :=
  ∃ s, c.resolve root selector = .ok s ∧ ∃ field ∈ s.fields, field.FansOut

/-- The built-in handlers make of a selector the path that mirrors it. -/
theorem Registry.pathOf_builtin (last : s.fields.getLast? = some s.leaf) :
    ∃ p, (withAdded []).pathOf s = .ok p ∧ p.Mirrors s := by
  refine ⟨_, extendAll_builtin s.fields (Path.root s.root), rfl, List.nil_append _, ?_⟩
  rw [last]
  rfl

/-! ## Keys -/

namespace Keyed

variable {α ε β : Type} {keyed : List (String × α)} {e : ε} {f : String × α → Except ε β}

/-- Along entries in order of their keys, a function fails as it does at the least key that it fails
at. -/
theorem failsFirst_iff (sorted : (keys keyed).Pairwise (· < ·)) :
    FailsFirst f keyed e ↔ ∃ entry ∈ keyed, f entry = .error e ∧
      ∀ other ∈ keyed, other.1 < entry.1 → ∃ b, f other = .ok b := by
  rw [keys, List.pairwise_map] at sorted
  constructor
  · rintro ⟨before, entry, behind, rfl, fine, fails⟩
    refine ⟨entry, by simp, fails, fun other mem less => ?_⟩
    obtain ⟨-, sorted, -⟩ := List.pairwise_append.mp sorted
    obtain ⟨above, -⟩ := List.pairwise_cons.mp sorted
    -- the keys behind the entry are greater, so a smaller one stands in front of it
    rw [List.mem_append, List.mem_cons] at mem
    obtain mem | rfl | mem := mem
    · exact fine other mem
    · exact absurd less (String.lt_irrefl _)
    · exact absurd (String.lt_trans less (above other mem)) (String.lt_irrefl _)
  · intro h
    obtain ⟨entry, mem, fails, fine⟩ := h
    obtain ⟨before, behind, rfl⟩ := List.append_of_mem mem
    obtain ⟨-, -, below⟩ := List.pairwise_append.mp sorted
    refine ⟨before, entry, behind, rfl, fun other there => ?_, fails⟩
    exact fine other (List.mem_append_left _ there) (below other there entry List.mem_cons_self)

end Keyed

/-- The value of a key is the one candidate of its path, or null if there is none. -/
theorem Stage.keyValue_of_single {k : OrderKey} (single : k.path.isMultiValued = false)
    (r : Record) :
    k.path.candidates r = [] ∧ keyValue r k = .ok .null ∨
      ∃ v, k.path.candidates r = [v] ∧ keyValue r k = .ok v := by
  have few := k.path.length_candidates single r
  cases candidates : k.path.candidates r with
  | nil =>
    left
    rw [keyValue, Expression.project, Expression.values_path candidates]
    exact ⟨rfl, rfl⟩
  | cons v vs =>
    right
    rw [candidates, List.length_cons, Nat.succ_le_iff, Nat.lt_one_iff,
      List.length_eq_zero_iff] at few
    rw [keyValue, Expression.project, Expression.values_path candidates, few]
    exact ⟨v, rfl, rfl⟩

namespace Catalog

/-- Whatever is wrong with a selector, it is no argument of a request. So an ordering with that
fault has one that fans out, and none that cannot be resolved in front of it. -/
theorem resolve_ne_invalidArgument (built : build enums entities = .ok c) (fault : ArgumentFault) :
    c.resolve root selector ≠ .error (.invalidArgument fault) := by
  intro h
  by_cases known : (c.entity? root).isSome
  · by_cases blank : ∀ x ∈ selector.toList, Text.isBlank x
    · have declared : ¬(c.entity? root).isNone := by
        rwa [Option.isNone_iff_eq_none, ← ne_eq, ← Option.isSome_iff_ne_none]
      rw [resolve, if_neg declared, if_pos (List.all_eq_true.mpr blank)] at h
      cases h
    · obtain ⟨before, piece, behind, fields, -, -, -, bad⟩ :=
        (resolve_eq_error built known blank).mp h
      cases bad
  · have unknown : (c.entity? root).isNone := by simpa using known
    rw [resolve, if_pos unknown] at h
    cases h

/-- A selector fans out when one of its fields does: a collection without an index. -/
theorem fansOut_iff (h : c.resolve root selector = .ok s) :
    c.FansOut root selector ↔ ∃ field ∈ s.fields, field.FansOut := by
  rw [FansOut, h]
  simp

end Catalog

namespace Config

variable {x sort : String} {d : Direction} {leaf : ResolvedField}

/-- A key whose path is known is refused for fanning out, and for nothing else. -/
theorem compileKey_of_path (h : config.resolvePath root selector = .ok (p, leaf)) (d : Direction) :
    config.compileKey root (selector, d) =
      if p.isMultiValued then .error (.invalidArgument (.unindexedSort selector))
      else .ok ⟨p, d⟩ := by
  rw [compileKey, h]
  rfl

theorem compileKey_of_error {e : QueryError} (h : config.catalog.resolve root selector = .error e)
    (d : Direction) : config.compileKey root (selector, d) = .error e := by
  rw [compileKey, resolvePath, h]
  rfl

section

variable (built : Catalog.build enums entities = .ok config.catalog)
  (registry : config.registry = .withAdded [])
include registry

/-- All that is known of the path of a selector that resolves. -/
theorem path_of_resolve (h : config.catalog.resolve root selector = .ok s) :
    ∃ p, config.registry.pathOf s = .ok p ∧ config.resolvePath root selector = .ok (p, s.leaf) ∧
      p.Mirrors s ∧ (p.isMultiValued ↔ ∃ field ∈ s.fields, field.FansOut) := by
  obtain ⟨-, leads⟩ := Catalog.leads_of_resolve h
  obtain ⟨p, hp, mirrors⟩ := Registry.pathOf_builtin leads.getLast?_eq
  have multi := Registry.isMultiValued_of_pathOf hp
  rw [← registry] at hp
  exact ⟨p, hp, resolvePath_eq_ok.mpr ⟨s, h, hp, rfl⟩, mirrors, multi⟩

/-- An entry has a key if its selector resolves and does not fan out. -/
theorem exists_compileKey_iff :
    (∃ k, config.compileKey root (selector, d) = .ok k) ↔
      (∃ s, config.catalog.resolve root selector = .ok s) ∧
        ¬config.catalog.FansOut root selector := by
  cases h : config.catalog.resolve root selector with
  | error e =>
    rw [compileKey_of_error h]
    exact iff_of_false nofun fun ⟨⟨_, known⟩, _⟩ => nomatch known
  | ok s =>
    obtain ⟨p, -, hp, -, multi⟩ := path_of_resolve registry h
    rw [compileKey_of_path hp, Catalog.fansOut_iff h, ← multi]
    cases p.isMultiValued <;> simp

include built

/-- An entry is rejected for a fan-out if its selector resolves and fans out. -/
theorem compileKey_eq_unindexed_iff :
    config.compileKey root (selector, d) = .error (.invalidArgument (.unindexedSort x)) ↔
      selector = x ∧ config.catalog.FansOut root selector := by
  cases h : config.catalog.resolve root selector with
  | error e =>
    rw [compileKey_of_error h, Except.error.injEq]
    -- it is the fault of a selector, and not that of an argument
    refine iff_of_false (fun same => ?_) fun ⟨_, _, known, _⟩ => nomatch h.symm.trans known
    exact Catalog.resolve_ne_invalidArgument built _ (same ▸ h)
  | ok s =>
    obtain ⟨p, -, hp, -, multi⟩ := path_of_resolve registry h
    rw [compileKey_of_path hp, Catalog.fansOut_iff h, ← multi]
    cases p.isMultiValued <;> simp

end

/-! ## Orderings -/

variable {entries : List (String × Direction)}

/-- The entries of an ordering are compiled in order of their selectors, each selector once. -/
theorem compileSort_of_read (read : (sortEntries sort).mapM readSortEntry = .ok entries) :
    config.compileSort root sort =
      (Keyed.insertAll entries []).mapM (config.compileKey root) := by
  rw [compileSort, read]
  rfl

theorem mem_keys_insertAll_nil :
    x ∈ Keyed.keys (Keyed.insertAll entries []) ↔ x ∈ Keyed.keys entries :=
  Keyed.mem_keys_insertAll.trans (or_iff_left List.not_mem_nil)

theorem forall_insertAll_iff {P : String → Prop} :
    (∀ entry ∈ Keyed.insertAll entries [], P entry.1) ↔ ∀ x ∈ Keyed.keys entries, P x := by
  constructor
  · intro h x hx
    obtain ⟨entry, mem, rfl⟩ := List.mem_map.mp (mem_keys_insertAll_nil.mpr hx)
    exact h entry mem
  · intro h entry mem
    exact h entry.1 (mem_keys_insertAll_nil.mp (List.mem_map_of_mem mem))

section

variable (built : Catalog.build enums entities = .ok config.catalog)
  (registry : config.registry = .withAdded [])
  (read : (sortEntries sort).mapM readSortEntry = .ok entries)
include registry read

/-- An ordering compiles if each of its selectors resolves and does not fan out. -/
theorem exists_compileSort_iff :
    (∃ keys, config.compileSort root sort = .ok keys) ↔
      ∀ x ∈ Keyed.keys entries, (∃ s, config.catalog.resolve root x = .ok s) ∧
        ¬config.catalog.FansOut root x := by
  have each : (∃ keys, config.compileSort root sort = .ok keys) ↔
      ∀ entry ∈ Keyed.insertAll entries [], ∃ k, config.compileKey root entry = .ok k := by
    rw [compileSort_of_read read]
    constructor
    · intro ⟨keys, compiled⟩ entry mem
      obtain ⟨k, -, key⟩ := ok_of_mem_mapM compiled mem
      exact ⟨k, key⟩
    · exact mapM_ok_of_forall
  rw [each, ← forall_insertAll_iff]
  exact forall₂_congr fun entry _ => exists_compileKey_iff registry

include built

/-- An ordering is rejected for a selector that fans out if the smaller ones compile. -/
theorem compileSort_eq_unindexed_iff :
    config.compileSort root sort = .error (.invalidArgument (.unindexedSort x)) ↔
      x ∈ Keyed.keys entries ∧ config.catalog.FansOut root x ∧
        ∀ y ∈ Keyed.keys entries, y < x → (∃ s, config.catalog.resolve root y = .ok s) ∧
          ¬config.catalog.FansOut root y := by
  have sorted : (Keyed.keys (Keyed.insertAll entries [])).Pairwise (· < ·) :=
    Keyed.pairwise_keys_insertAll entries .nil
  rw [compileSort_of_read read, mapM_eq_error, Keyed.failsFirst_iff sorted]
  constructor
  · rintro ⟨⟨selector, d⟩, mem, rejected, fine⟩
    obtain ⟨rfl, fans⟩ := (compileKey_eq_unindexed_iff built registry).mp rejected
    refine ⟨mem_keys_insertAll_nil.mp (List.mem_map_of_mem mem), fans,
      forall_insertAll_iff.mp fun other there less => ?_⟩
    exact (exists_compileKey_iff registry).mp (fine other there less)
  · intro ⟨given, fans, fine⟩
    obtain ⟨entry, mem, rfl⟩ := List.mem_map.mp (mem_keys_insertAll_nil.mpr given)
    refine ⟨entry, mem, (compileKey_eq_unindexed_iff built registry).mpr ⟨rfl, fans⟩,
      fun other there less => (exists_compileKey_iff registry).mpr ?_⟩
    exact forall_insertAll_iff.mpr fine other there less

end

/-- No key of a compiled ordering fans out, so each has one value in a record at most. -/
theorem not_multiValued_of_compileSort {keys : List OrderKey}
    (h : config.compileSort root sort = .ok keys) : ∀ k ∈ keys, k.path.isMultiValued = false := by
  intro k hk
  obtain ⟨entries, -, compiled⟩ := compileSort_eq_ok.mp h
  obtain ⟨entry, -, key⟩ := exists_of_mem_forall₂ compiled.flip hk
  exact (compileKey_eq_ok.mp key).2.1

/-- Paths mirror selectors. With the built-in handlers, let a selector of a built catalog resolve.
It has a path, whose steps are those of its segments, each the property of its name and behind a
collection the element of its index or else all elements, and whose class is that of what the last
segment reaches. The path is multi-valued if and only if a segment goes through all elements of a
collection, and this is when no sort key is made of it. Whatever the record, a path that is not
multi-valued has one candidate at most.

So an ordering compiles exactly if its selectors resolve and do not fan out. It is rejected for a
fan-out exactly if one of them fans out and all in front of it, in order of their texts, compile.
And the value of a key is the one candidate of its path, or null. -/
theorem paths_mirror_selectors {pattern : Option String} {operators : List ComparisonOperator}
    (built : Catalog.build enums entities = .ok c)
    (configured : build c pattern operators [] = .ok config) (root : String) :
    (∀ selector s, c.resolve root selector = .ok s →
      c.Resolves root selector s.fields ∧
      ∃ p, config.registry.pathOf s = .ok p ∧ config.resolvePath root selector = .ok (p, s.leaf) ∧
        p.Mirrors s ∧ (p.isMultiValued ↔ ∃ field ∈ s.fields, field.FansOut) ∧
        ∀ d, config.compileKey root (selector, d) =
          if p.isMultiValued then .error (.invalidArgument (.unindexedSort selector))
          else .ok ⟨p, d⟩) ∧
    (∀ (p : Path) r, p.isMultiValued = false → (p.candidates r).length ≤ 1) ∧
    ∀ sort entries, (sortEntries sort).mapM readSortEntry = .ok entries →
      ((∃ keys, config.compileSort root sort = .ok keys) ↔
        ∀ x ∈ Keyed.keys entries, (∃ s, c.resolve root x = .ok s) ∧ ¬c.FansOut root x) ∧
      (∀ x, config.compileSort root sort = .error (.invalidArgument (.unindexedSort x)) ↔
        x ∈ Keyed.keys entries ∧ c.FansOut root x ∧
          ∀ y ∈ Keyed.keys entries, y < x →
            (∃ s, c.resolve root y = .ok s) ∧ ¬c.FansOut root y) ∧
      ∀ keys, config.compileSort root sort = .ok keys → ∀ k ∈ keys, ∀ r,
        k.path.candidates r = [] ∧ Stage.keyValue r k = .ok .null ∨
          ∃ v, k.path.candidates r = [v] ∧ Stage.keyValue r k = .ok v := by
  have registry : config.registry = .withAdded [] := by rw [(build_eq_ok.mp configured).2]
  obtain rfl : config.catalog = c := by rw [(build_eq_ok.mp configured).2]
  refine ⟨fun selector s h => ⟨(Catalog.exists_resolve_iff built).mp ⟨s, h, rfl⟩, ?_⟩,
    fun p r single => p.length_candidates single r, fun sort entries read => ⟨?_, fun x => ?_, ?_⟩⟩
  · obtain ⟨p, hpath, hp, mirrors, multi⟩ := path_of_resolve registry h
    exact ⟨p, hpath, hp, mirrors, multi, compileKey_of_path hp⟩
  · exact exists_compileSort_iff registry read
  · exact compileSort_eq_unindexed_iff built registry read
  · intro keys compiled k hk r
    exact Stage.keyValue_of_single (not_multiValued_of_compileSort compiled k hk) r

/-- With an index a screw of a car has one size. The screws of its engine fan out, and so do those
of the car, which come behind them. -/
theorem paths_mirror_selectors_screws :
    let config := standard Sample.catalog
    (∃ p leaf, config.resolvePath "Car" "screws[1].size" = .ok (p, leaf) ∧
      p.steps = [.property "screws", .index 1, .property "size"] ∧ p.kind = .numeric ∧
      p.isMultiValued = false) ∧
    config.compileSort "Car" "(screws.size.desc, description.asc, engine.screws.name.asc)" =
      .error (.invalidArgument (.unindexedSort "engine.screws.name")) := by
  intro config
  obtain ⟨selectors, -, sorts⟩ :=
    paths_mirror_selectors Sample.build_eq_catalog (build_eq_standard _) "Car"
  refine ⟨?_, ?_⟩
  · obtain ⟨s, h⟩ : ∃ s, Sample.catalog.resolve "Car" "screws[1].size" = .ok s := ⟨_, rfl⟩
    obtain ⟨-, p, -, hp, mirrors, multi, -⟩ := selectors _ s h
    cases h
    refine ⟨p, _, hp, mirrors.steps, mirrors.kind, Bool.eq_false_iff.mpr fun fans => ?_⟩
    obtain ⟨field, mem, collection, unindexed⟩ := multi.mp fans
    revert field
    decide
  · have read : (sortEntries
        "(screws.size.desc, description.asc, engine.screws.name.asc)").mapM readSortEntry =
        .ok [("screws.size", .descending), ("description", .ascending),
          ("engine.screws.name", .ascending)] := by decide +kernel
    have resolves (x : String) (s : ResolvedSelector) (h : Sample.catalog.resolve "Car" x = .ok s) :
        Sample.catalog.FansOut "Car" x ↔ ∃ field ∈ s.fields, field.FansOut :=
      Catalog.fansOut_iff h
    refine ((sorts _ _ read).2.1 "engine.screws.name").mpr ⟨by decide, ?_, ?_⟩
    · exact (resolves _ _ rfl).mpr ⟨_, List.mem_cons_of_mem _ List.mem_cons_self, rfl, rfl⟩
    · have below : ∀ y ∈ Keyed.keys [("screws.size", Direction.descending),
          ("description", .ascending), ("engine.screws.name", .ascending)],
          y < "engine.screws.name" → y = "description" := by decide
      intro y mem less
      obtain rfl := below y mem less
      refine ⟨⟨_, rfl⟩, mt (resolves _ _ rfl).mp ?_⟩
      rintro ⟨field, mem, collection, -⟩
      cases List.mem_singleton.mp mem
      cases collection

end Config

end EntityQuery
