import EntityQuery.Proofs.Condition.Compilation
import EntityQuery.Proofs.Handler.Delegation
import EntityQuery.Proofs.Operator
import EntityQuery.Handler.Extension
import EntityQuery.Sample

/-!
# Extensions of a configuration

Further operators and handlers can be added to a configuration, behind those that it already has.
What they do not touch is compiled as before (`compileFilter_extension`). An added operator
touches the comparisons that are written with one of its symbols. An added handler touches those
whose selector leads through a field of a type that it supports, or to one in whose type such a
type occurs: then it may be asked for the path, for the predicate, or for the literals of elements.

For this the handlers that a configuration has must not ask for types that do not occur in the type
of the field, for such a type may be one that an added handler supports. Then what they do with a
field depends on the handlers of the types that occur in it (`Registry.coerce_congr`).
-/

namespace EntityQuery

open EntityQuery.Filter (Node Junction)

/-! ## Operators -/

/-- Added operators are checked on their own: legal ones in front do not make others legal or
illegal. -/
theorem firstIllegalSymbol_append {operators added : List ComparisonOperator}
    (h : firstIllegalSymbol operators = none) :
    firstIllegalSymbol (operators ++ added) = firstIllegalSymbol added := by
  induction operators with
  | nil => rfl
  | cons op operators ih =>
    rw [firstIllegalSymbol] at h
    rw [List.cons_append, firstIllegalSymbol]
    split at h
    · cases h
    · next nonempty =>
      rw [if_neg nonempty]
      split at h
      · cases h
      · exact ih h

/-- Operators without a symbol have no say in what it stands for. -/
theorem AliasTable.lookup?_merge_append (t : AliasTable) (operators : List ComparisonOperator)
    {added : List ComparisonOperator} {symbol : String}
    (unused : ∀ op ∈ added, symbol ∉ op.symbols) :
    (t.merge (operators ++ added)).lookup? symbol = (t.merge operators).lookup? symbol := by
  have none : added.reverse.find? (symbol ∈ ·.symbols) = none :=
    List.find?_eq_none.mpr fun op mem has =>
      unused op (List.mem_reverse.mp mem) (of_decide_eq_true has)
  rw [lookup?_merge, lookup?_merge, List.reverse_append, List.find?_append, none, Option.none_or]

/-! ## Handlers -/

namespace Registry

variable {r r' : Registry}

/-- A handler that does not support a type is passed over in looking for it. -/
theorem lookup_withAdded_append {handlers added : List Handler} {t : FieldType}
    (unsupported : ∀ h ∈ added, h.supports t = false) :
    (withAdded (handlers ++ added)).lookup t = (withAdded handlers).lookup t := by
  have none : added.find? (·.supports t) = none :=
    List.find?_eq_none.mpr fun h mem => Bool.eq_false_iff.mp (unsupported h mem)
  rw [lookup, lookup, withAdded, withAdded, List.append_assoc, List.find?_append,
    List.find?_append, List.find?_append, none, Option.none_or]

/-- The path of a selector depends on the handlers that the types of its fields are looked up to,
and on no others. -/
theorem extendAll_congr {fields : List ResolvedField} {p : Path}
    (agree : ∀ field ∈ fields, r.lookup field.type = r'.lookup field.type) :
    r.extendAll p fields = r'.extendAll p fields := by
  induction fields generalizing p with
  | nil => rfl
  | cons field fields ih =>
    obtain ⟨here, behind⟩ := List.forall_mem_cons.mp agree
    rw [extendAll, extendAll, here]
    simp only [ih behind]

end Registry

namespace Config

variable {config config' : Config} {root : String}

/-! ## Comparisons -/

/-- Two configurations agree on a comparison: on its symbol, and on the handlers of the types that
its selector meets. -/
structure AgreesOn (config config' : Config) (root : String) (c : ComparisonText) : Prop where
  operator : config.operator c.operator = config'.operator c.operator
  fields : ∀ s, config.catalog.resolve root c.selector = .ok s → ∀ field ∈ s.fields,
    config.registry.lookup field.type = config'.registry.lookup field.type
  leaf : ∀ s, config.catalog.resolve root c.selector = .ok s → ∀ element,
    element.Within s.leaf.type →
    config.registry.lookup element = config'.registry.lookup element

/-- So a selector has the same path in two configurations with the same catalog that look these
types up alike. -/
theorem resolvePath_congr (catalog : config.catalog = config'.catalog) {selector : String}
    (agree : ∀ s, config.catalog.resolve root selector = .ok s → ∀ field ∈ s.fields,
      config.registry.lookup field.type = config'.registry.lookup field.type) :
    config.resolvePath root selector = config'.resolvePath root selector := by
  rw [resolvePath, resolvePath, ← catalog]
  cases hs : config.catalog.resolve root selector with
  | error cause => rfl
  | ok s =>
    have path : config.registry.pathOf s = config'.registry.pathOf s :=
      Registry.extendAll_congr (agree s hs)
    rw [ok_bind, ok_bind, path]

/-- Two configurations differ in operators and handlers only, and the handlers of the second one ask
for nothing but types that occur in that of their field. -/
structure DiffersInAdded (config config' : Config) : Prop where
  catalog : config.catalog = config'.catalog
  datePattern : config.datePattern = config'.datePattern
  depth : config.depth = config'.depth
  asks : ∀ h ∈ config'.registry.handlers, h.AsksOnly FieldType.Within

/-- A handler that both configurations have for a field reads literals alike. -/
theorem DiffersInAdded.coerce_eq (differs : DiffersInAdded config config') {field : ResolvedField}
    (agree : ∀ u, u.Within field.type → config.registry.lookup u = config'.registry.lookup u)
    {h : Handler} (found : config'.registry.lookup field.type = .ok h) (literals : List String) :
    h.coerce (config.context field) literals = h.coerce (config'.context field) literals := by
  have alike := congrFun (Registry.coerce_congr differs.asks config'.catalog config'.datePattern
    config'.depth agree) literals
  rw [Registry.coerce, Registry.coerce, agree _ .self, found, ok_bind, ok_bind] at alike
  rw [context, context, differs.catalog, differs.datePattern, differs.depth, alike]

/-- Configurations that agree on a comparison compile it alike: on its operator, on the handlers
along its selector, and on those that its literals can be handed on to. -/
theorem compileComparison_congr (differs : DiffersInAdded config config') {c : ComparisonText}
    (agree : AgreesOn config config' root c) :
    config.compileComparison root c.selector c.operator c.arguments =
      config'.compileComparison root c.selector c.operator c.arguments := by
  have path := resolvePath_congr differs.catalog agree.fields
  rw [compileComparison, compileComparison, agree.operator, path]
  cases resolved : config'.resolvePath root c.selector with
  | error cause => rfl
  | ok found =>
    obtain ⟨p, leaf⟩ := found
    obtain ⟨s, hs, -, rfl⟩ := resolvePath_eq_ok.mp (path.trans resolved)
    have handler := agree.leaf s hs s.leaf.type .self
    cases found : config'.registry.lookup s.leaf.type with
    | error cause => simp only [ok_bind, handler, found, error_bind]
    | ok h =>
      simp only [ok_bind, handler, found, differs.coerce_eq (agree.leaf s hs) found]

/-! ## Trees -/

/-- The children behind the first one of a junction compile alike when each of them does. -/
theorem compileFurther_congr {junction : Junction} {before : Expression} {ns : List Node}
    (each : ∀ n ∈ ns, config.compileNode root n = config'.compileNode root n) :
    config.compileFurther root junction before ns =
      config'.compileFurther root junction before ns := by
  induction ns generalizing before with
  | nil => rw [compileFurther, compileFurther]
  | cons n ns ih =>
    obtain ⟨first, rest⟩ := List.forall_mem_cons.mp each
    rw [compileFurther, compileFurther, first]
    simp only [ih rest]

/-- A tree compiles alike when its comparisons are untouched by the difference. Junctions ask
nothing of a configuration. -/
theorem compileNode_congr (differs : DiffersInAdded config config') {n : Node}
    (agree : ∀ c ∈ n.leaves, AgreesOn config config' root c) :
    config.compileNode root n = config'.compileNode root n := by
  induction n using Node.induct with
  | comparison selector operator arguments =>
    have same := compileComparison_congr differs (agree _ (List.mem_singleton_self _))
    rw [compileNode, compileNode, same]
  | logical junction children ih =>
    have each : ∀ n ∈ children, config.compileNode root n = config'.compileNode root n :=
      fun n hn => ih n hn fun c hc => agree c (Node.mem_leaves_of_child hn hc)
    rw [compileNode, compileNode]
    cases children with
    | nil => rfl
    | cons n ns =>
      obtain ⟨first, rest⟩ := List.forall_mem_cons.mp each
      rw [compileChildren, compileChildren, first]
      simp only [compileFurther_congr rest]

/-! ## Extensions -/

/-- What is added to a configuration does not touch a comparison: no added operator has its symbol,
and no added handler supports the type of a segment of its selector, or a type that occurs in the
type of the leaf. -/
structure Untouched (catalog : Catalog) (root : String) (operators : List ComparisonOperator)
    (handlers : List Handler) (c : ComparisonText) : Prop where
  operator : ∀ op ∈ operators, c.operator ∉ op.symbols
  segments : ∀ s, catalog.resolve root c.selector = .ok s → ∀ field ∈ s.fields, ∀ h ∈ handlers,
    h.supports field.type = false
  elements : ∀ s, catalog.resolve root c.selector = .ok s → ∀ element,
    element.Within s.leaf.type → ∀ h ∈ handlers, h.supports element = false

theorem build_eq_ok {catalog : Catalog} {pattern : Option String}
    {operators : List ComparisonOperator} {handlers : List Handler} {depth : Nat} :
    build catalog pattern operators handlers depth = .ok config ↔
      firstIllegalSymbol operators = none ∧
        config = ⟨catalog, pattern, .merge .builtin operators, .withAdded handlers, depth⟩ := by
  unfold build
  split
  · next illegal => exact iff_of_false nofun fun ⟨legal, _⟩ => nomatch illegal.symm.trans legal
  · next legal => rw [Except.ok.injEq, eq_comm, and_iff_right legal]

section Extending

variable {catalog : Catalog} {pattern : Option String}
  {operators addedOperators : List ComparisonOperator} {handlers addedHandlers : List Handler}
  {depth : Nat}

/-- Legal operators always make a configuration; handlers and patterns are not checked. -/
theorem exists_build (legal : firstIllegalSymbol operators = none) :
    ∃ config, build catalog pattern operators handlers depth = .ok config :=
  ⟨_, build_eq_ok.mpr ⟨legal, rfl⟩⟩

/-- An extension agrees with the configuration on what is not touched. -/
theorem Untouched.agreesOn {extended : Config} {c : ComparisonText}
    (h : Untouched catalog root addedOperators addedHandlers c)
    (built : build catalog pattern operators handlers depth = .ok config)
    (wider : build catalog pattern (operators ++ addedOperators) (handlers ++ addedHandlers) depth =
      .ok extended) :
    AgreesOn extended config root c := by
  obtain ⟨-, rfl⟩ := build_eq_ok.mp built
  obtain ⟨-, rfl⟩ := build_eq_ok.mp wider
  refine ⟨?_, fun s hs field mem => ?_, fun s hs element within => ?_⟩
  · rw [Config.operator, Config.operator]
    dsimp only
    rw [AliasTable.lookup?_merge_append _ _ h.operator]
  · exact Registry.lookup_withAdded_append (h.segments s hs field mem)
  · exact Registry.lookup_withAdded_append (h.elements s hs element within)

/-- The built-in handlers ask for no other types, so it is enough that those added first do not. -/
theorem differsInAdded_of_build {extended : Config}
    (built : build catalog pattern operators handlers depth = .ok config)
    (wider : build catalog pattern (operators ++ addedOperators) (handlers ++ addedHandlers) depth =
      .ok extended)
    (asks : ∀ h ∈ handlers, h.AsksOnly FieldType.Within) : DiffersInAdded extended config := by
  obtain ⟨-, rfl⟩ := build_eq_ok.mp built
  obtain ⟨-, rfl⟩ := build_eq_ok.mp wider
  refine ⟨rfl, rfl, rfl, fun h mem => ?_⟩
  obtain first | builtin := List.mem_append.mp mem
  · exact asks h first
  · exact (Handler.asksOnly_of_mem_builtins builtin).mono fun _ _ inside => inside.within

/-- A configuration can be extended by operators that can be written and by any handlers. As long as
the handlers that it already has do not ask for types that do not occur in that of their field, a
filter of which no comparison is touched has the same predicate in the extension, or fails with the
same error. -/
theorem compileFilter_extension
    (built : build catalog pattern operators handlers depth = .ok config)
    (asks : ∀ h ∈ handlers, h.AsksOnly FieldType.Within)
    (legal : firstIllegalSymbol addedOperators = none) (addedHandlers : List Handler) :
    ∃ extended, build catalog pattern (operators ++ addedOperators) (handlers ++ addedHandlers)
        depth = .ok extended ∧
      ∀ root filter, (∀ n, Filter.parse filter = .ok n → ∀ c ∈ n.leaves,
          Untouched catalog root addedOperators addedHandlers c) →
        extended.compileFilter root filter = config.compileFilter root filter := by
  have configured := build_eq_ok.mp built
  obtain ⟨extended, wider⟩ := exists_build ((firstIllegalSymbol_append configured.1).trans legal)
  refine ⟨extended, wider, fun root filter untouched => ?_⟩
  rw [compileFilter, compileFilter]
  cases parsed : Filter.parse filter with
  | error fault => rfl
  | ok n =>
    have agree : ∀ c ∈ n.leaves, AgreesOn extended config root c := fun c hc =>
      (untouched n parsed c hc).agreesOn built wider
    exact compileNode_congr (differsInAdded_of_build built wider asks) agree

end Extending

/-- A spelling of the likeness operator is taken over and a handler for custom types is added. A
filter that uses neither of them compiles to the same predicate. -/
theorem compileFilter_extension_sample :
    ∃ config extended,
      build Sample.catalog none [Handler.notEmptyOperator] [Handler.notEmptyString] =
          .ok config ∧
        build Sample.catalog none [Handler.notEmptyOperator, ⟨none, ["=like=", "=matches="]⟩]
          [Handler.notEmptyString, Handler.customText] = .ok extended ∧
        extended.compileFilter "Car" "screws.name=customnotempty='',id==3" =
          config.compileFilter "Car" "screws.name=customnotempty='',id==3" := by
  have built : build Sample.catalog none [Handler.notEmptyOperator] [Handler.notEmptyString] =
      .ok _ := build_eq_ok.mpr ⟨by decide +kernel, rfl⟩
  have legal : firstIllegalSymbol [⟨none, ["=like=", "=matches="]⟩] = none := by decide +kernel
  have asks : ∀ h ∈ [Handler.notEmptyString], h.AsksOnly FieldType.Within :=
    List.forall_mem_singleton.mpr fun _ _ _ => rfl
  obtain ⟨extended, wider, same⟩ := compileFilter_extension built asks legal [Handler.customText]
  refine ⟨_, extended, built, wider, same "Car" _ fun n parsed c hc => ?_⟩
  have tree : Filter.parse "screws.name=customnotempty='',id==3" =
      .ok (.logical .or [.comparison "screws.name" "=customnotempty=" [""],
        .comparison "id" "==" ["3"]]) := by decide +kernel
  cases tree.symm.trans parsed
  obtain rfl | rfl : c = ⟨"screws.name", "=customnotempty=", [""]⟩ ∨ c = ⟨"id", "==", ["3"]⟩ := by
    simpa [Node.leaves, Node.leavesOf] using hc
  · have resolved : Sample.catalog.resolve "Car" "screws.name" = .ok ⟨"screws.name", "Car",
        [⟨"screws", none, .collection .list (.entity "Screw"), "Car", none⟩,
          ⟨"name", none, .string, "Screw", some 0⟩],
        ⟨"name", none, .string, "Screw", some 0⟩⟩ := by decide +kernel
    refine ⟨by decide, fun s hs => ?_, fun s hs element within => ?_⟩
    · cases resolved.symm.trans hs
      decide
    · cases resolved.symm.trans hs
      cases within
      decide
  · have resolved : Sample.catalog.resolve "Car" "id" = .ok ⟨"id", "Car",
        [⟨"id", none, .numeric (.integral .w64), "BaseEntity", none⟩],
        ⟨"id", none, .numeric (.integral .w64), "BaseEntity", none⟩⟩ := by decide +kernel
    refine ⟨by decide, fun s hs => ?_, fun s hs element within => ?_⟩
    · cases resolved.symm.trans hs
      decide
    · cases resolved.symm.trans hs
      cases within
      decide

end Config

end EntityQuery
