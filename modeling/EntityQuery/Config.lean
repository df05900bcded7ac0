import EntityQuery.Handler.Registry

/-!
# Configuration

What queries are compiled against: the catalog, the pattern that dates are written in, the
operators that symbols stand for, the handlers of types, and how often these may leave a literal to
one another. Operators and handlers can be added to
the built-in ones; an added operator that could not be written in a filter is refused.
-/

namespace EntityQuery

/-- What queries are compiled against. -/
structure Config where
  catalog : Catalog
  datePattern : Option String
  aliases : AliasTable
  registry : Registry
  /-- How often handlers hand a literal on, other than to the elements of a collection. -/
  depth : Nat

namespace Config

/-- The configuration with added operators and handlers. -/
def build (catalog : Catalog) (datePattern : Option String) (operators : List ComparisonOperator)
    (handlers : List Handler) (depth : Nat := Registry.defaultDepth) :
    Except CompilationError Config :=
  match firstIllegalSymbol operators with
  | some symbol => .error (.ofCause (.illegalOperator symbol))
  | none =>
    .ok ⟨catalog, datePattern, AliasTable.builtin.merge operators, Registry.withAdded handlers,
      depth⟩

/-- The built-in operators and handlers for a catalog. -/
def standard (catalog : Catalog) : Config :=
  ⟨catalog, none, AliasTable.builtin, Registry.withAdded [], Registry.defaultDepth⟩

/-- The standard configuration is the one to which nothing is added. -/
theorem build_eq_standard (catalog : Catalog) :
    build catalog none [] [] = .ok (standard catalog) := by
  simp only [build, firstIllegalSymbol, standard, AliasTable.merge, List.foldl_nil]

def operator (config : Config) (symbol : String) : Except QueryError ComparisonOperator :=
  match config.aliases.lookup? symbol with
  | some op => .ok op
  | none => .error (.unknownOperator symbol)

/-- What a handler is told about a field that a selector leads to. -/
def context (config : Config) (field : ResolvedField) : LiteralContext :=
  config.registry.contextOf config.catalog config.datePattern config.depth field

/-- The path of a selector on a root entity, with the field that it leads to. -/
def resolvePath (config : Config) (root selector : String) :
    Except QueryError (Path × ResolvedField) := do
  let s ← config.catalog.resolve root selector
  let p ← config.registry.pathOf s
  return (p, s.leaf)

end Config

end EntityQuery
