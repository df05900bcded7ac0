import EntityQuery.Proofs.Schema.Chain
import EntityQuery.Proofs.Schema.Resolution
import EntityQuery.Sample
import Mathlib.Data.List.Induction

/-!
# What selectors resolve to

A selector is cut at its points, and its pieces are taken from the left, each behind the chain of
fields that the pieces before it have given (`walk`). Resolving is this walk
(`resolve_map_fields`). It therefore succeeds exactly when the pieces spell the segments of a chain
(`exists_resolve_iff`), and otherwise it reports what is wrong with the first piece that does not
go on the chain (`resolve_eq_error`). The text of the fields, joined with points, is a selector for
the same fields, in the spelling that writes an index without a sign or leading zeros.
-/

namespace EntityQuery

/-- Cutting at a separator is what the library calls `List.splitOn`. -/
theorem Text.splitChars_eq_splitOn (separator : Char) (cs : List Char) :
    splitChars separator cs = cs.splitOn separator := by
  induction cs with
  | nil => rfl
  | cons c cs ih =>
    rw [splitChars, List.splitOn_cons_eq_if_modifyHead, ih]
    simp only [beq_iff_eq]
    split
    · rfl
    · cases split : cs.splitOn separator with
      | nil => exact absurd split (List.splitOn_ne_nil _ _)
      | cons piece rest => rfl

namespace Catalog

variable {enums : List EnumType} {entities : List EntityType} {c : Catalog}
  {selector root : String} {fields : List ResolvedField}
  {pieces : List (List Char)} {s : ResolvedSelector} {e : QueryError}

/-! ## The walk along a selector -/

/-- Takes pieces of a selector behind the fields that there are. -/
def walk (c : Catalog) (selector root : String) (fields : List ResolvedField)
    (pieces : List (List Char)) : Except QueryError (List ResolvedField) :=
  pieces.foldlM (fun fields piece => (c.nextField selector root fields piece).map fun field =>
    fields ++ [field]) fields

/-- A walk along a whole selector succeeds when its pieces spell a chain. The chain is that of the
fields found, each looked up in the type that the one before it leads to. -/
theorem walk_eq_ok (built : build enums entities = .ok c) :
    c.walk selector root [] pieces = .ok fields ↔
      List.Forall₂ Segment.Spells pieces (fields.map ResolvedField.segment) ∧
        c.Chain root fields := by
  -- a chain grows at its end, and so must the list of pieces
  induction pieces using List.reverseRecOn generalizing fields with
  | nil =>
    constructor
    · rintro ⟨⟩
      exact ⟨.nil, .nil⟩
    · rintro ⟨spelled, -⟩
      cases fields with
      | nil => rfl
      | cons field fields => cases spelled
  | append_singleton pieces piece ih =>
    have step : c.walk selector root [] (pieces ++ [piece]) =
        c.walk selector root [] pieces >>= fun front =>
          (c.nextField selector root front piece).map fun field => front ++ [field] := by
      rw [walk, List.foldlM_append]
      simp only [List.foldlM_cons, List.foldlM_nil, bind_pure]
      rfl
    rw [step, bind_eq_ok]
    simp only [map_eq_ok, ih, nextField_eq_ok built]
    constructor
    · rintro ⟨front, ⟨spelled, chain⟩, field, ⟨last, entity, on, found⟩, rfl⟩
      rw [List.map_append]
      exact ⟨List.rel_append spelled (.cons last .nil), chain.snoc on found⟩
    · rintro ⟨spelled, chain⟩
      cases chain with
      | nil => cases pieces <;> cases spelled
      | @snoc front field entity chain on found =>
        rw [List.map_append, List.map_singleton, ← List.forall₂_reverse_iff,
          List.reverse_append, List.reverse_append] at spelled
        cases spelled with
        | cons last before =>
          exact ⟨front, ⟨List.forall₂_reverse_iff.mp before, chain⟩, field,
            ⟨last, entity, on, found⟩, rfl⟩

/-- A walk along a selector takes one field and goes on behind it. -/
theorem walk_cons (piece : List Char) :
    c.walk selector root fields (piece :: pieces) =
      c.nextField selector root fields piece >>= fun field =>
        c.walk selector root (fields ++ [field]) pieces := by
  rw [walk, List.foldlM_cons]
  cases c.nextField selector root fields piece <;> rfl

/-! ## Resolving is the walk -/

/-- The pieces behind a field are taken behind the fields up to it. The code goes down the pieces
and puts the fields in front on its way back; the walk puts them behind as it goes. -/
theorem resolveBehind_map (front : List ResolvedField) (previous : ResolvedField) :
    (c.resolveBehind selector front.length previous pieces).map (fun found => front ++ found.1) =
      c.walk selector root (front ++ [previous]) pieces := by
  induction pieces generalizing front previous with
  | nil => rfl
  | cons piece pieces ih =>
    rw [walk_cons, nextField, resolveBehind, List.getLast?_concat]
    cases readSegment selector piece with
    | error e => rfl
    | ok segment =>
      cases on : previous.type.navigable? with
      | none => simp only [on]; rfl
      | some entity =>
        have position : (front ++ [previous]).length - 1 = front.length := by simp
        simp only [on, position, ok_bind]
        cases c.resolveSegment selector entity (some front.length) segment with
        | error e => rfl
        | ok field =>
          have behind := ih (front ++ [previous]) field
          rw [List.length_append, List.length_singleton] at behind
          refine Eq.trans ?_ behind
          rw [ok_bind]
          cases c.resolveBehind selector (front.length + 1) field pieces with
          | error e => rfl
          | ok found => exact congrArg Except.ok (List.append_cons front previous found.1)

/-- What a selector of a known entity resolves to is what the walk gives. -/
theorem resolve_map_fields (known : (c.entity? root).isSome)
    (nonblank : ¬ ∀ x ∈ selector.toList, Text.isBlank x) :
    (c.resolve root selector).map (·.fields) =
      c.walk selector root [] (selector.toList.splitOn '.') := by
  obtain ⟨t, ht⟩ := Option.isSome_iff_exists.mp known
  rw [← Text.splitChars_eq_splitOn, resolve, if_neg (by rw [ht]; exact Bool.false_ne_true),
    if_neg (by rwa [List.all_eq_true])]
  cases cut : Text.splitChars '.' selector.toList with
  | nil => exact absurd cut (Text.splitChars_ne_nil _ _)
  | cons first rest =>
    rw [walk_cons]
    dsimp only [nextField, List.getLast?_nil]
    cases readSegment selector first with
    | error e => rfl
    | ok segment =>
      rw [ok_bind, ok_bind]
      cases c.resolveSegment selector root none segment with
      | error e => rfl
      | ok field =>
        refine Eq.trans ?_ (resolveBehind_map [] field)
        rw [ok_bind]
        cases c.resolveBehind selector 0 field rest <;> rfl

/-! ## What is resolved -/

/-- The fields that a selector stands for: the chain whose segments its pieces spell. -/
structure Resolves (c : Catalog) (root selector : String) (fields : List ResolvedField) :
    Prop where
  known : (c.entity? root).isSome
  spelled : List.Forall₂ Segment.Spells (selector.toList.splitOn '.')
    (fields.map ResolvedField.segment)
  chain : c.Chain root fields

/-- A blank selector is one piece, which spells no segment. -/
theorem Resolves.nonblank (h : c.Resolves root selector fields) :
    ¬ ∀ x ∈ selector.toList, Text.isBlank x := by
  intro blank
  have point : '.' ∉ selector.toList := fun mem => absurd (blank '.' mem) (by decide)
  have spelled := h.spelled
  rw [List.splitOn_eq_singleton point] at spelled
  generalize fields.map ResolvedField.segment = segments at spelled
  cases spelled with
  | cons first _ => exact Segment.not_spells_of_blank blank first

/-- The chains of fields that a selector resolves to are those that the relation gives. It has at
most one. -/
theorem exists_resolve_iff (built : build enums entities = .ok c) :
    (∃ s, c.resolve root selector = .ok s ∧ s.fields = fields) ↔
      c.Resolves root selector fields := by
  constructor
  · rintro ⟨s, h, rfl⟩
    obtain ⟨known, nonblank, -⟩ := exists_of_resolve h
    have walked := resolve_map_fields known nonblank
    rw [h] at walked
    obtain ⟨spelled, chain⟩ := (walk_eq_ok built).mp walked.symm
    exact ⟨known, spelled, chain⟩
  · intro h
    have walked := resolve_map_fields h.known h.nonblank
    rw [(walk_eq_ok built).mpr ⟨h.spelled, h.chain⟩] at walked
    exact map_eq_ok.mp walked

/-- The fields of a chain have names. -/
theorem Resolves.named (h : c.Resolves root selector fields) :
    ∀ field ∈ fields, Segment.IsName field.name.toList := by
  intro field mem
  obtain ⟨piece, -, spelled⟩ :=
    exists_of_mem_forall₂ h.spelled.flip (List.mem_map_of_mem (f := ResolvedField.segment) mem)
  exact Segment.isName_of_spells spelled

/-- There is a field for each piece between the points. -/
theorem Resolves.length_eq (h : c.Resolves root selector fields) :
    fields.length = (selector.toList.splitOn '.').length := by
  rw [h.spelled.length_eq, List.length_map]

/-- The texts of the fields, joined with points, are a selector for the same fields. -/
theorem Resolves.text (h : c.Resolves root selector fields) :
    c.Resolves root (".".intercalate (fields.map (·.segment.text))) fields := by
  have nonempty : fields ≠ [] := by
    rintro rfl
    exact List.splitOn_ne_nil _ _ (List.length_eq_zero_iff.mp h.length_eq.symm)
  have pieces : (".".intercalate (fields.map (·.segment.text))).toList.splitOn '.' =
      fields.map (·.segment.text.toList) := by
    rw [String.toList_intercalate, List.map_map]
    refine List.splitOn_intercalate '.' ?_ (mt List.map_eq_nil_iff.mp nonempty)
    rintro _ mem
    obtain ⟨field, hfield, rfl⟩ := List.mem_map.mp mem
    exact Segment.point_not_mem_text (h.named field hfield)
  refine ⟨h.known, ?_, h.chain⟩
  rw [pieces, List.forall₂_map_left_iff, List.forall₂_map_right_iff, List.forall₂_same]
  exact fun field hfield => Segment.spells_text (h.named field hfield)

/-- A selector of a known entity that is not blank fails for its first piece that does not go on
the chain of the pieces before it. -/
theorem resolve_eq_error (built : build enums entities = .ok c)
    (known : (c.entity? root).isSome) (nonblank : ¬ ∀ x ∈ selector.toList, Text.isBlank x) :
    c.resolve root selector = .error e ↔
      ∃ before piece behind fields, selector.toList.splitOn '.' = before ++ piece :: behind ∧
        List.Forall₂ Segment.Spells before (fields.map ResolvedField.segment) ∧
        c.Chain root fields ∧ c.Fault selector root fields piece e := by
  rw [← map_eq_error (g := (·.fields)), resolve_map_fields known nonblank, walk, foldlM_eq_error]
  simp only [map_eq_error]
  constructor
  · rintro ⟨before, piece, behind, fields, split, walked, fails⟩
    obtain ⟨spelled, chain⟩ := (walk_eq_ok built).mp walked
    exact ⟨before, piece, behind, fields, split, spelled, chain,
      (nextField_eq_error built known chain).mp fails⟩
  · rintro ⟨before, piece, behind, fields, split, spelled, chain, fault⟩
    exact ⟨before, piece, behind, fields, split, (walk_eq_ok built).mpr ⟨spelled, chain⟩,
      (nextField_eq_error built known chain).mpr fault⟩

/-- Selectors are resolved exactly. In a built catalog a selector resolves when its root is known
and its pieces, cut at every point, spell the segments of a chain of fields from the root. It then
gives these fields, one for each piece and each with the position in front of its own, and their
joined texts give them again. Otherwise, if the root is known and the selector is not blank, it
reports the fault of the first piece that does not go on the chain. A chain never leads to an
unknown entity. -/
theorem resolve_exact (built : build enums entities = .ok c) (root selector : String) :
    ((∃ s, c.resolve root selector = .ok s) ↔ ∃ fields, c.Resolves root selector fields) ∧
    (∀ s, c.resolve root selector = .ok s →
      s.selector = selector ∧ s.root = root ∧ c.Resolves root selector s.fields ∧
      s.fields.getLast? = some s.leaf ∧
      s.fields.length = (selector.toList.splitOn '.').length ∧
      (∀ i field, s.fields[i]? = some field → field.parent = parentOf i) ∧
      ∃ again, c.resolve root (".".intercalate (s.fields.map (·.segment.text))) = .ok again ∧
        again.fields = s.fields) ∧
    ((c.entity? root).isSome → (¬ ∀ x ∈ selector.toList, Text.isBlank x) → ∀ e,
      c.resolve root selector = .error e ↔
        ∃ before piece behind fields, selector.toList.splitOn '.' = before ++ piece :: behind ∧
          List.Forall₂ Segment.Spells before (fields.map ResolvedField.segment) ∧
          c.Chain root fields ∧ c.Fault selector root fields piece e) ∧
    ((c.entity? root).isSome → ∀ fields entity, c.Chain root fields →
      entityBehind root fields = some entity → (c.entity? entity).isSome) := by
  refine ⟨?_, fun s h => ?_, fun known nonblank e => resolve_eq_error built known nonblank,
    fun known fields entity chain on => chain.entity? built known on⟩
  · simp only [← exists_resolve_iff built]
    exact ⟨fun ⟨s, h⟩ => ⟨s.fields, s, h, rfl⟩, fun ⟨_, s, h, _⟩ => ⟨s, h⟩⟩
  · have resolves := (exists_resolve_iff built).mp ⟨s, h, rfl⟩
    obtain ⟨-, -, hselector, -⟩ := exists_of_resolve h
    obtain ⟨hroot, leads⟩ := leads_of_resolve h
    exact ⟨hselector, hroot, resolves, leads.getLast?_eq, resolves.length_eq,
      fun i field hi => resolves.chain.parent hi, (exists_resolve_iff built).mpr resolves.text⟩

/-- The screws of a car and a field that they inherit, with an index that has a sign. -/
theorem resolve_exact_screws :
    Catalog.build Sample.enums Sample.entities = .ok Sample.catalog ∧
    ∃ s again, Sample.catalog.resolve "Car" "screws[+01].id" = .ok s ∧
      s.leaf.owner = "BaseEntity" ∧ Sample.catalog.resolve "Car" "screws[1].id" = .ok again ∧
      again.fields = s.fields := by
  obtain ⟨s, h⟩ : ∃ s, Sample.catalog.resolve "Car" "screws[+01].id" = .ok s := ⟨_, rfl⟩
  have exact := (resolve_exact Sample.build_eq_catalog "Car" "screws[+01].id").2.1 s h
  obtain ⟨again, hagain, same⟩ := exact.2.2.2.2.2.2
  cases h
  exact ⟨Sample.build_eq_catalog, _, again, rfl, rfl, hagain, same⟩

end Catalog

end EntityQuery
