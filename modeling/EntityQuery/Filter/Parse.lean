import EntityQuery.Filter.Node
import EntityQuery.Filter.Scan

/-!
# From tokens to a tree

The grammar of filters is

    or         = and { ("," | "or") and }
    and        = constraint { (";" | "and") constraint }
    constraint = "(" or ")" | comparison
    comparison = selector operator ( argument | "(" argument { "," argument } ")" )

where the words `and` and `or` may also be selectors and arguments. The tokens are read one by one
by a machine with a stack: a group that is open holds the constraints of its current `and` and the
finished operands of its `or`, and the groups around it wait below. A token that the machine
refuses is the first one with which no filter can go on, so the fault is reported there.
-/

namespace EntityQuery.Filter

/-- The parts of an open group that are complete. -/
structure Group where
  /-- The operands of the disjunction that are finished. -/
  disjuncts : List Node
  /-- The operands of the conjunction that is being read. -/
  conjuncts : List Node

/-- The group before anything of it is read. -/
def Group.empty : Group := ⟨[], []⟩

namespace Group

/-- Adds a constraint to the current conjunction. -/
def addConstraint (g : Group) (n : Node) : Group := ⟨g.disjuncts, g.conjuncts ++ [n]⟩

/-- Ends the current conjunction. -/
def endConjunction (g : Group) : Group := ⟨g.disjuncts ++ [.join .and g.conjuncts], []⟩

/-- The tree of the whole group. -/
def node (g : Group) : Node := .join .or g.endConjunction.disjuncts

end Group

/-- What the machine expects next. -/
inductive Phase where
  | constraint
  | operator (selector : String)
  | argument (selector operator : String)
  /-- An argument in a list, behind those already read. -/
  | listArgument (selector operator : String) (arguments : List String)
  /-- A comma or the end of a list of arguments. -/
  | listEnd (selector operator : String) (arguments : List String)
  | afterConstraint
  | done

/-- The state of the machine: the innermost open group, those around it, innermost first, and the
phase. -/
structure Parser where
  group : Group
  outer : List Group
  phase : Phase

/-- The machine before the first token. -/
def Parser.start : Parser := ⟨.empty, [], .constraint⟩

namespace Parser

/-- Adds a complete comparison to the innermost group. -/
def addComparison (p : Parser) (selector operator : String) (arguments : List String) : Parser :=
  ⟨p.group.addConstraint (.comparison selector operator arguments), p.outer, .afterConstraint⟩

/-- Reads one token behind a complete constraint. -/
def stepAfterConstraint (p : Parser) (t : Token) : Except SyntaxFault Parser :=
  if t.isAnd then .ok { p with phase := .constraint }
  else if t.isOr then .ok { p with group := p.group.endConjunction, phase := .constraint }
  else
    -- the innermost group ends here: with the filter, or with the parenthesis that closes it
    match p.outer with
    | [] => if t = .eof then .ok { p with phase := .done } else .error (.unexpectedToken t)
    | around :: outer =>
      if t = .rightParen then .ok ⟨around.addConstraint p.group.node, outer, .afterConstraint⟩
      else .error (.expectedParen t)

/-- Reads one token. -/
def step (p : Parser) (t : Token) : Except SyntaxFault Parser :=
  match p.phase with
  | .constraint =>
    match t with
    | .leftParen => .ok ⟨.empty, p.group :: p.outer, .constraint⟩
    | .word selector => .ok { p with phase := .operator selector }
    | _ => .error (.expectedSelector t)
  | .operator selector =>
    match t with
    | .operator text => .ok { p with phase := .argument selector text }
    | _ => .error (.expectedOperator t)
  | .argument selector operator =>
    match t with
    | .leftParen => .ok { p with phase := .listArgument selector operator [] }
    | .word text | .quoted text => .ok (p.addComparison selector operator [text])
    | _ => .error (.expectedArgument t)
  | .listArgument selector operator arguments =>
    match t with
    | .word text | .quoted text =>
      .ok { p with phase := .listEnd selector operator (arguments ++ [text]) }
    | _ => .error (.expectedArgument t)
  | .listEnd selector operator arguments =>
    match t with
    | .comma => .ok { p with phase := .listArgument selector operator arguments }
    | .rightParen => .ok (p.addComparison selector operator arguments)
    | _ => .error (.expectedParen t)
  | .afterConstraint => p.stepAfterConstraint t
  | .done => .error (.unexpectedToken t)

/-- Reads tokens in turn, up to the first that is refused. -/
def run (p : Parser) : List PlacedToken → Except SyntaxError Parser
  | [] => .ok p
  | t :: ts =>
    match p.step t.token with
    | .ok q => q.run ts
    | .error fault => .error ⟨t.position, fault⟩

end Parser

/-- The tree of a list of tokens that ends with the end of the filter. -/
def parseTokens (tokens : List PlacedToken) : Except SyntaxError Node :=
  (Parser.start.run tokens).map fun p => p.group.node

/-- The tree of a filter. -/
def parse (input : String) : Except SyntaxError Node := (scan input).bind parseTokens

end EntityQuery.Filter
