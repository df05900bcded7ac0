import EntityQuery.Config
import EntityQuery.Filter.Parse

/-!
# Compiling a filter

A comparison becomes the predicate that the handler of its field has for its operator: the operator
is looked up first, then the selector is resolved, then the arguments are read, and last the rule
is applied. The children of a tree are joined from the left. A failure within a comparison carries
the comparison with it.
-/

namespace EntityQuery.Config

open EntityQuery.Filter (Node Junction)

def compileComparison (config : Config) (root selector symbol : String)
    (arguments : List String) : Except QueryError Expression := do
  let op ← config.operator symbol
  let (path, leaf) ← config.resolvePath root selector
  let h ← config.registry.lookup leaf.type
  let operand ← h.coerce (config.context leaf) arguments
  match h.predicate path operand op with
  | some e => return e
  | none => throw (.noPredicate selector symbol arguments)

mutual

/-- The predicate of a filter. -/
def compileNode (config : Config) (root : String) : Node → Except CompilationError Expression
  | .comparison selector symbol arguments =>
    match config.compileComparison root selector symbol arguments with
    | .ok e => .ok e
    | .error cause => .error ⟨cause, some ⟨selector, symbol, arguments⟩⟩
  | .logical junction children => compileChildren config root junction children

/-- The predicate of the children of a tree, of which there has to be one. -/
def compileChildren (config : Config) (root : String) (junction : Junction) :
    List Node → Except CompilationError Expression
  | [] => .error (.ofCause (.invalidArgument (.noChildren junction)))
  | n :: ns =>
    match compileNode config root n with
    | .ok e => compileFurther config root junction e ns
    | .error err => .error err

/-- Joins further children to what there is. -/
def compileFurther (config : Config) (root : String) (junction : Junction) (before : Expression) :
    List Node → Except CompilationError Expression
  | [] => .ok before
  | n :: ns =>
    match compileNode config root n with
    | .ok e => compileFurther config root junction (.logical junction before e) ns
    | .error err => .error err

end

/-- The predicate of the text of a filter. -/
def compileFilter (config : Config) (root filter : String) :
    Except CompilationError Expression :=
  match Filter.parse filter with
  | .ok node => config.compileNode root node
  | .error e => .error (.ofCause (.malformedFilter e))

end EntityQuery.Config
