import EntityQuery.Proofs.Condition.Equality
import EntityQuery.Proofs.Condition.Extension
import EntityQuery.Proofs.Value.Order

/-!
# Collections of collections

The literals of a comparison on a collection are those of its elements, and if the elements are
collections in turn, those of their elements, down to a type that is none. But the path of the
comparison goes into the outermost collection only. So literals and candidates are of one kind for
fields that are no collection of collections, and for those alone
(`Config.compileComparison_nested_iff`).

A comparison for equality on a collection of collections therefore compiles, since its literals can
be read, and then fails of every record that conforms and has an element there, for a list is
compared with a literal that is none.
-/

namespace EntityQuery

variable {c : Catalog} {t u : FieldType} {kinds : List CollectionKind} {pattern : Option String}
  {field : ResolvedField} {literals : List String} {x : Operand} {v w : Value}

/-! ## Types and kinds -/

namespace FieldType

/-- Collections of the given kinds, the first one outermost, around a type. -/
def nested (kinds : List CollectionKind) (t : FieldType) : FieldType :=
  kinds.foldr FieldType.collection t

/-- Going through a field takes off the outermost collection. -/
theorem candidate?_nested (comparable : u.isComparable) :
    (nested kinds u).candidate? = some (nested kinds.tail u) := by
  cases kinds with
  | cons kind kinds => rfl
  | nil =>
    cases u with
    | collection | rawCollection => cases comparable
    | _ => rfl

end FieldType

namespace Value

/-- Values that fit one comparable type are of one kind. This is what comparing a path with a
literal of its own type rests on. -/
theorem Fits.kind_eq (comparable : t.isComparable) (hv : v.Fits c t) (hw : w.Fits c t)
    (knownV : v.isNull = false) (knownW : w.isNull = false) : v.kind = w.kind := by
  cases hv with
  | null => cases knownV
  | floating | record | custom | list | rawList => cases comparable
  | integer m width =>
    cases hw with
    | null => cases knownW
    | integer n width' => exact congrArg IntWidth.name (width.trans width'.symm)
  | text | character | boolean | date | dateTime | constant =>
    cases hw with
    | null => cases knownW
    | _ => rfl

/-- No value of a comparable type is a list. -/
theorem Fits.kind_ne_list (comparable : t.isComparable) (h : w.Fits c t) : w.kind ≠ "list" := by
  cases h with
  | floating | record | custom | list | rawList => cases comparable
  | integer n width =>
    change n.width.name ≠ "list"
    cases n.width <;> decide
  | _ => simp [kind]

/-- A value of a collection is null or a list. -/
theorem Fits.list_cases {kind : CollectionKind} (h : v.Fits c (.collection kind t))
    (known : v.isNull = false) : ∃ items, v = .list items := by
  cases h with
  | null => cases known
  | list => exact ⟨_, rfl⟩

end Value

/-! ## Literals -/

/-- Literals for a nested collection are those for what it is around. -/
theorem Registry.coerce_nested (ht : field.type = .nested kinds u) :
    ∃ innermost : ResolvedField, innermost.type = u ∧ ∀ c pattern depth literals,
      (withAdded []).coerce c pattern depth field literals =
        (withAdded []).coerce c pattern depth innermost literals := by
  obtain ⟨name, index, type, owner, parent⟩ := field
  dsimp only at ht
  subst ht
  induction kinds generalizing index with
  | nil => exact ⟨_, rfl, fun _ _ _ _ => rfl⟩
  | cons kind kinds ih =>
    obtain ⟨innermost, ht, same⟩ := ih none
    exact ⟨innermost, ht, fun c pattern depth literals =>
      (coerce_element rfl).trans (same c pattern depth literals)⟩

/-- One value is made of one literal, and null of an empty one only. -/
theorem coerceEach_eq_single {read : String → Except QueryError Value}
    (h : coerceEach read literals = .ok (.single v)) :
    ∃ literal, literals = [literal] ∧ (literal = "" → v = .null) := by
  obtain ⟨vs, hvs, single⟩ := map_eq_ok.mp h
  have one : vs = [v] := by rw [← Operand.toList_ofValues vs, single, Operand.toList]
  rw [one, mapM_eq_ok, List.forall₂_cons_right_iff] at hvs
  obtain ⟨literal, rest, hl, hrest, rfl⟩ := hvs
  obtain rfl := List.forall₂_nil_right_iff.mp hrest
  refine ⟨literal, rfl, fun empty => ?_⟩
  rw [if_pos empty] at hl
  exact (Except.ok.inj hl).symm

namespace Handler

/-- Literals of a comparable type are read one by one. -/
theorem exists_coerceEach (comparable : u.isComparable) (context : LiteralContext) :
    ∃ read, (builtinFor u).coerce context = coerceEach read := by
  cases u with
  | entity | custom | collection | rawCollection => cases comparable
  | _ => exact ⟨_, rfl⟩

/-- Of a comparable type, nothing but an empty literal is null. -/
theorem isNull_of_coerce (comparable : u.isComparable) {context : LiteralContext}
    (ht : context.field.type = u) (nonempty : "" ∉ literals)
    (h : (builtinFor u).coerce context literals = .ok x) : ∀ v ∈ x.toList, v.isNull = false := by
  intro v hv
  obtain ⟨empty, -⟩ | ⟨-, known⟩ :=
    coerce_builtinFor_values (c := context.catalog) comparable ht h v hv
  · exact absurd empty nonempty
  · exact known

end Handler

/-! ## Comparisons for equality -/

/-- A list cannot be compared with a value that is none. -/
theorem Relation.apply_eq_list_error {items : List Value} (known : w.isNull = false) :
    Relation.eq.apply (.list items) w = .error ⟨"=", "list", w.kind⟩ := by
  have apart : (Value.list items).compare w = none := by
    refine Option.not_isSome_iff_eq_none.mp fun comparable => ?_
    obtain ⟨kind, scale, -⟩ := Value.exists_scale comparable
    cases scale
  have list : (Value.list items).isNull = false := rfl
  rw [apply, list, known, apart]
  rfl

namespace Expression

variable {r : Record} {e : Expression} {p : Path}

/-- A comparison is defined where all candidates are null. -/
theorem succeeds_of_null {relation : Relation} (h : ∀ v ∈ p.candidates r, v.isNull) :
    (compare relation (path p) (literal w)).Succeeds r := by
  have defined : ∀ pair ∈ Evaluation.pairs (p.candidates r) [w],
      ∃ truth, relation.apply pair.1 pair.2 = .ok truth := by
    intro pair mem
    obtain ⟨v, hv, hpair⟩ := List.mem_flatMap.mp mem
    obtain rfl := List.mem_singleton.mp hpair
    refine ⟨.unknown, ?_⟩
    dsimp only
    rw [Relation.apply, h v hv]
    rfl
  exact any_mapM_ok defined

/-- A comparison for equality fails as soon as one of the candidates is a list. -/
theorem not_succeeds_of_list {items : List Value} (mem : .list items ∈ p.candidates r)
    (known : w.isNull = false) : ¬(compare .eq (path p) (literal w)).Succeeds r := by
  rintro ⟨truth, h⟩
  rw [test_compare_to (values_literal w), values_path rfl, ok_bind] at h
  obtain ⟨outcomes, each, -⟩ := bind_eq_ok.mp h
  obtain ⟨truth, -, defined⟩ := ok_of_mem_mapM each mem
  rw [Relation.apply_eq_list_error known] at defined
  cases defined

end Expression

namespace Config

variable {config : Config} {operators : List ComparisonOperator} {root selector symbol : String}
  {s : ResolvedSelector} {arguments : List String} {e : Expression}

/-- What a comparison for equality compiles to: a check for null if its literal is empty, and else a
comparison with a value of the type that the collections are around. -/
theorem compileComparison_equals_cases (registry : config.registry = .withAdded [])
    (equals : config.operator symbol = .ok Builtin.equals.operator)
    (resolved : config.catalog.resolve root selector = .ok s) (ht : s.leaf.type = .nested kinds u)
    (comparable : u.isComparable) {p : Path} (hp : config.registry.pathOf s = .ok p)
    (h : config.compileComparison root selector symbol arguments = .ok e) :
    "" ∈ arguments ∧ e = .check .isNull (.path p) ∨
      "" ∉ arguments ∧ ∃ w : Value, w.isNull = false ∧ e = .compare .eq (.path p) (.literal w) := by
  obtain ⟨op, s', p', handler, operand, hop, hs', hp', hh, hoperand, made⟩ :=
    compileComparison_eq_ok.mp h
  cases equals.symm.trans hop
  cases resolved.symm.trans hs'
  cases hp.symm.trans hp'
  rw [registry] at hh
  cases (Registry.lookup_builtin s.leaf.type).symm.trans hh
  obtain ⟨innermost, rfl, same⟩ := Registry.coerce_nested ht
  rw [coerce_context registry, same, Registry.coerce_eq_builtinFor] at hoperand
  rw [predicate_equals, equalOrNull, Option.map_eq_some_iff] at made
  obtain ⟨w, hw, rfl⟩ := made
  -- a list of values has no single one to be equal to, so it has no predicate
  cases operand with
  | list vs => cases hw
  | single v =>
    obtain rfl : v = w := Option.some.inj hw
    obtain ⟨read, hread⟩ := Handler.exists_coerceEach comparable
      ((Registry.withAdded []).contextOf config.catalog config.datePattern config.depth innermost)
    obtain ⟨literal, rfl, null⟩ := coerceEach_eq_single (hread ▸ hoperand)
    by_cases empty : literal = ""
    · left
      rw [null empty]
      exact ⟨List.mem_singleton.mpr empty.symm, rfl⟩
    · right
      have nonempty : "" ∉ [literal] := fun mem => empty (List.mem_singleton.mp mem).symm
      have known := Handler.isNull_of_coerce comparable rfl nonempty hoperand v
        (List.mem_singleton_self v)
      refine ⟨nonempty, v, known, ?_⟩
      rw [known]
      rfl

/-- Literals and candidates agree for simple collections only. With the built-in handlers, let a
selector lead to collections of collections of a comparable type, to any depth. It has a path, and
whatever literals that are not empty are read as, they are of the kind of the values that the path
reaches on records that conform, null left out, exactly if the depth is at most one. A comparison
for equality that compiles is defined on such a record exactly if the depth is at most one, the
literal is empty or all candidates are null; otherwise its operands cannot be compared. -/
theorem compileComparison_nested_iff (built : build c pattern operators [] = .ok config)
    (equals : config.operator symbol = .ok Builtin.equals.operator)
    (resolved : c.resolve root selector = .ok s) (ht : s.leaf.type = .nested kinds u)
    (comparable : u.isComparable) :
    ∃ p, config.resolvePath root selector = .ok (p, s.leaf) ∧
      (∀ literals x, "" ∉ literals →
        config.registry.coerce c pattern config.depth s.leaf literals = .ok x →
        ∀ r : Record, r.Conforms c root → ∀ v ∈ p.candidates r, v.isNull = false →
          ∀ w ∈ x.toList, v.kind = w.kind ↔ kinds.length ≤ 1) ∧
      ∀ arguments e, config.compileComparison root selector symbol arguments = .ok e →
        ∀ r : Record, r.Conforms c root →
          (e.Succeeds r ↔
            kinds.length ≤ 1 ∨ "" ∈ arguments ∨ ∀ v ∈ p.candidates r, v.isNull) := by
  obtain ⟨p, hp⟩ := Registry.exists_pathOf s
  have registry : config.registry = .withAdded [] := by rw [(build_eq_ok.mp built).2]
  obtain rfl : config.catalog = c := by rw [(build_eq_ok.mp built).2]
  rw [← registry] at hp
  have candidate : s.leaf.type.candidate? = some (.nested kinds.tail u) :=
    ht ▸ FieldType.candidate?_nested comparable
  have fits (r : Record) (conforms : r.Conforms config.catalog root) :
      ∀ v ∈ p.candidates r, v.Fits config.catalog (.nested kinds.tail u) :=
    candidates_fit registry resolved hp candidate conforms
  refine ⟨p, resolvePath_eq_ok.mpr ⟨s, resolved, hp, rfl⟩, ?_, ?_⟩
  · intro literals x nonempty hx r conforms v hv known w hw
    obtain ⟨innermost, rfl, same⟩ := Registry.coerce_nested ht
    rw [registry, same, Registry.coerce_eq_builtinFor] at hx
    have knownW := Handler.isNull_of_coerce comparable rfl nonempty hx w hw
    have fitsW : w.Fits config.catalog innermost.type :=
      Handler.coerce_builtinFor_fits comparable rfl hx w hw
    have fitsV := fits r conforms v hv
    -- a path takes one step into the elements, and the literal is read by the innermost type
    match kinds with
    | [] | [_] => exact iff_of_true (fitsV.kind_eq comparable fitsW known knownW) (by simp)
    | _ :: _ :: _ =>
      obtain ⟨items, rfl⟩ := fitsV.list_cases known
      exact iff_of_false (fitsW.kind_ne_list comparable).symm (by simp)
  · intro arguments e he r conforms
    have compiled := compileComparison_equals_cases registry equals resolved ht comparable hp he
    have simple (h : kinds.tail = []) : e.Succeeds r := by
      refine compileComparison_sound registry (fun s' hs' => ?_) he conforms
      cases resolved.symm.trans hs'
      exact ⟨u, by rw [candidate, h]; rfl, comparable⟩
    match kinds with
    | [] | [_] => exact iff_of_true (simple rfl) (.inl (by simp))
    | _ :: _ :: _ =>
      -- an empty literal is null, and the comparison a check, which even lists pass
      obtain ⟨empty, rfl⟩ | ⟨nonempty, w, known, rfl⟩ := compiled
      · refine iff_of_true ?_ (.inr (.inl empty))
        exact Expression.succeeds_check (Expression.yields_path (fits r conforms))
          fun _ _ => ⟨_, rfl⟩
      · constructor
        · intro succeeds
          refine .inr (.inr fun v hv => ?_)
          by_contra value
          have known' : v.isNull = false := Bool.eq_false_of_not_eq_true value
          obtain ⟨items, rfl⟩ := (fits r conforms v hv).list_cases known'
          exact Expression.not_succeeds_of_list hv known succeeds
        · rintro (shallow | empty | null)
          · simp at shallow
          · exact absurd empty nonempty
          · exact Expression.succeeds_of_null null

end Config

/-! ## Numbers in a grid -/

/-- A catalog with a simple collection and one of collections. -/
def gridCatalog : Catalog :=
  ⟨[], [⟨"Grid", none, [⟨"tags", .collection .set .string⟩,
    ⟨"cells", .collection .list (.collection .list (.numeric (.integral .w32)))⟩]⟩]⟩

/-- A grid with one number and two tags. -/
def grid : Record :=
  Record.ofFields "Grid" [("tags", .list [.text "a", .text "b"]),
    ("cells", .list [.list [.integer ⟨.w32, 1, by decide, by decide⟩]])]

/-- A grid with nested lists is a record like any other: its values fit their declared types. -/
theorem grid_conforms : grid.Conforms gridCatalog "Grid" := by
  refine Record.conforms_of_allFields ?_
  rintro declared (_ | ⟨_, _ | ⟨_, ⟨⟩⟩⟩)
  · refine .list .set ?_
    rintro v (_ | ⟨_, _ | ⟨_, ⟨⟩⟩⟩)
    · exact .text "a"
    · exact .text "b"
  · refine .list .list ?_
    rintro v (_ | ⟨_, ⟨⟩⟩)
    refine .list .list ?_
    rintro v (_ | ⟨_, ⟨⟩⟩)
    exact .integer _ rfl

namespace Config

/-- The tags of a grid can be compared with a tag. -/
theorem compileComparison_nested_iff_tags :
    ∃ e, (standard gridCatalog).compileComparison "Grid" "tags" "==" ["b"] = .ok e ∧
      e.Succeeds grid := by
  let tags : ResolvedField := ⟨"tags", none, .collection .set .string, "Grid", none⟩
  have resolved : gridCatalog.resolve "Grid" "tags" = .ok ⟨"tags", "Grid", [tags], tags⟩ := by
    decide +kernel
  have equals := operator_builtin (build_eq_standard gridCatalog) (b := .equals)
    (show "==" ∈ _ by decide)
  obtain ⟨p, -, -, succeeds⟩ := compileComparison_nested_iff (build_eq_standard gridCatalog) equals
    resolved (show tags.type = .nested [.set] .string from rfl) rfl
  obtain ⟨e, he⟩ : ∃ e, (standard gridCatalog).compileComparison "Grid" "tags" "==" ["b"] = .ok e :=
    ⟨_, (compileComparison_builtin_eq_ok (build_eq_standard gridCatalog) (b := .equals)
      (by decide)).mpr ⟨_, _, _, rfl, rfl, rfl⟩⟩
  exact ⟨e, he, (succeeds _ e he grid grid_conforms).mpr (.inl (by decide))⟩

/-- The cells of a grid cannot be compared with a number, though the comparison compiles. -/
theorem compileComparison_cells_fails :
    ∃ e, (standard gridCatalog).compileComparison "Grid" "cells" "==" ["1"] = .ok e ∧
      grid.Conforms gridCatalog "Grid" ∧ e.test grid = .error ⟨"=", "list", "i32"⟩ := by
  have built := build_eq_standard gridCatalog
  exact ⟨_, (compileComparison_builtin_eq_ok built (b := .equals) (by decide)).mpr
    ⟨_, _, _, rfl, rfl, rfl⟩, grid_conforms, rfl⟩

end Config

end EntityQuery
