import EntityQuery.Proofs.Condition.Compilation
import EntityQuery.Proofs.Handler.Builtin
import EntityQuery.Proofs.Operator

/-!
# Comparisons without added operators and handlers

When no handler is added to a configuration, the handler of a field is the one of its family. A
comparison then compiles when its operator is known, its selector resolves, its literals can be read
for the leaf, and the handler of the leaf has a rule for the operator
(`compileComparison_plain_eq_ok`). When no operator is added either, the symbol of a built-in
operator stands for it (`compileComparison_builtin_eq_ok`).
-/

namespace EntityQuery.Config

variable {catalog : Catalog} {pattern : Option String} {config : Config}
  {root selector symbol : String} {arguments : List String} {b : Builtin} {e : Expression}

/-- Without additions there is one configuration for a catalog and a date pattern. -/
theorem build_nil_eq_ok :
    build catalog pattern [] [] = .ok config ↔
      config = ⟨catalog, pattern, .builtin, .withAdded [], Registry.defaultDepth⟩ := by
  have made : build catalog pattern [] [] =
      .ok ⟨catalog, pattern, .builtin, .withAdded [], Registry.defaultDepth⟩ := by
    simp only [build, firstIllegalSymbol, AliasTable.merge, List.foldl_nil]
  rw [made, Except.ok.injEq, eq_comm]

/-- The symbols of the built-in operators stand for these operators in it. -/
theorem operator_builtin (built : build catalog pattern [] [] = .ok config)
    (h : symbol ∈ b.symbols) : config.operator symbol = .ok b.operator := by
  have aliases : config.aliases = .builtin := by rw [build_nil_eq_ok.mp built]
  rw [operator, aliases, AliasTable.lookup?_builtin h]

/-- The literals for a leaf are read by the handler of its family. -/
theorem coerce_context (registry : config.registry = .withAdded []) (leaf : ResolvedField)
    (literals : List String) :
    (Handler.builtinFor leaf.type).coerce (config.context leaf) literals =
      (Registry.withAdded []).coerce config.catalog config.datePattern config.depth leaf
        literals := by
  rw [context, registry, Registry.coerce_eq_builtinFor]

/-- Without added handlers a comparison is what the handler of the family of its field makes of it,
whatever operators are added. -/
theorem compileComparison_plain_eq_ok (registry : config.registry = .withAdded []) :
    config.compileComparison root selector symbol arguments = .ok e ↔
      ∃ op p leaf operand, config.operator symbol = .ok op ∧
        config.resolvePath root selector = .ok (p, leaf) ∧
        config.registry.coerce config.catalog config.datePattern config.depth leaf arguments =
          .ok operand ∧
        (Handler.builtinFor leaf.type).predicate p operand op = some e := by
  rw [compileComparison_eq_ok, registry]
  constructor
  · rintro ⟨op, s, p, handler, operand, hop, hs, hp, hh, hoperand, made⟩
    cases (Registry.lookup_builtin s.leaf.type).symm.trans hh
    rw [← registry] at hp
    exact ⟨op, p, s.leaf, operand, hop, resolvePath_eq_ok.mpr ⟨s, hs, hp, rfl⟩,
      (coerce_context registry s.leaf arguments).symm.trans hoperand, made⟩
  · rintro ⟨op, p, leaf, operand, hop, hpath, hoperand, made⟩
    obtain ⟨s, hs, hp, rfl⟩ := resolvePath_eq_ok.mp hpath
    rw [registry] at hp
    exact ⟨op, s, p, Handler.builtinFor s.leaf.type, operand, hop, hs, hp,
      Registry.lookup_builtin _, (coerce_context registry s.leaf arguments).trans hoperand, made⟩

/-- A comparison compiles when its path resolves, its literals are read and the rules of the handler
have a predicate for its operator. All three are functions, so the claims about built-in handlers
start from here. -/
theorem compileComparison_builtin_eq_ok (built : build catalog pattern [] [] = .ok config)
    (h : symbol ∈ b.symbols) :
    config.compileComparison root selector symbol arguments = .ok e ↔
      ∃ p leaf operand, config.resolvePath root selector = .ok (p, leaf) ∧
        config.registry.coerce catalog pattern config.depth leaf arguments = .ok operand ∧
        (Handler.builtinFor leaf.type).predicate p operand b.operator = some e := by
  have hb := operator_builtin built h
  cases build_nil_eq_ok.mp built
  rw [compileComparison_plain_eq_ok rfl]
  constructor
  · rintro ⟨op, p, leaf, operand, hop, rest⟩
    cases hb.symm.trans hop
    exact ⟨p, leaf, operand, rest⟩
  · rintro ⟨p, leaf, operand, rest⟩
    exact ⟨b.operator, p, leaf, operand, hb, rest⟩

end EntityQuery.Config
