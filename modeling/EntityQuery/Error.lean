import EntityQuery.Filter.Node
import EntityQuery.Floating.Text
import EntityQuery.Numeral.Integer
import EntityQuery.Schema.FieldType

/-!
# What can be wrong with a query

One type for all causes, with the wording of each in `message`. A failure to compile a query is a
cause together with the comparison that was being compiled, if it was one.
-/

namespace EntityQuery

/-- What is wrong with a selector on its own. -/
inductive SelectorFault where
  | blank
  | unclosedIndex (segment : String)
  | badIndex (digits segment : String)
  | emptySegment
  | badSegment (segment : String)
  | notIndexable (field : String)
  deriving DecidableEq

def SelectorFault.message : SelectorFault → String
  | .blank => "selector is empty"
  | .unclosedIndex segment => "unclosed index in '" ++ segment ++ "'"
  | .badIndex digits segment => "bad index '" ++ digits ++ "' in '" ++ segment ++ "'"
  | .emptySegment => "empty segment"
  | .badSegment segment => "bad segment '" ++ segment ++ "'"
  | .notIndexable field => "segment '" ++ field ++ "' is not a collection and can't be indexed"

/-- Why a literal has no value of the type of its field. -/
inductive LiteralFault where
  | integer (fault : Numeral.IntegerFault)
  | floating (fault : Numeral.FloatingFault)
  | notFinite
  | outOfRange (width : NumericWidth)
  | fraction (width : NumericWidth)
  | notBoolean
  | notConstant (enumeration : String)
  | unknownEnum (type : FieldType)
  | notOfPattern (pattern : String)
  | notDate
  /-- Handlers leave a literal to one another and do not come to an end. -/
  | endless
  deriving DecidableEq

def LiteralFault.message : LiteralFault → String
  | .integer fault => fault.message
  | .floating fault => fault.message
  | .notFinite => "number is not finite"
  | .outOfRange width => "out of range for " ++ width.name
  | .fraction width => "fractional value for " ++ width.name ++ " field"
  | .notBoolean => "expected true or false"
  | .notConstant enumeration => "not a constant of " ++ enumeration
  | .unknownEnum type => "unknown enum type " ++ type.text
  | .notOfPattern pattern => "does not match date format '" ++ pattern ++ "'"
  | .notDate => "not a recognised date or epoch milliseconds"
  | .endless => "handlers leave it to one another without end"

/-- What is wrong with an argument of a query other than a comparison. -/
inductive ArgumentFault where
  | noChildren (junction : Filter.Junction)
  | nestedColumn (name : String)
  | sortEntry (entry : String)
  | unindexedSort (selector : String)
  | notPair (input : String)
  | pageOverflow (number size : UInt64)
  deriving DecidableEq

def junctionName : Filter.Junction → String
  | .and => "And"
  | .or => "Or"

def ArgumentFault.message : ArgumentFault → String
  | .noChildren junction => junctionName junction ++ " node without children"
  | .nestedColumn name => "select accepts top-level fields only, got '" ++ name ++ "'"
  | .sortEntry entry => "sort entry '" ++ entry ++ "' must look like path.asc or path.desc"
  | .unindexedSort selector =>
    "cannot sort by '" ++ selector ++ "': it crosses a collection without an index"
  | .notPair input => "'" ++ input ++ "' must contain exactly two non-negative integers"
  | .pageOverflow number size =>
    "page " ++ Numeral.decimal number.toNat ++ " of size " ++ Numeral.decimal size.toNat ++
      " overflows"

/-- An operator was applied to values of kinds that it does not take. -/
structure OperandMismatch where
  operator : String
  left : String
  right : String
  deriving DecidableEq

def OperandMismatch.message (m : OperandMismatch) : String :=
  "Invalid operand types for operator " ++ m.operator ++ ": left=" ++ m.left ++ ", right=" ++
    m.right

/-- A cause of failure. -/
inductive QueryError where
  /-- A segment of a selector is no field of the type that it is looked for on. -/
  | unresolvedField (selector owner segment : String)
  | invalidSelector (selector : String) (fault : SelectorFault)
  | unsupportedType (type : FieldType)
  | illegalOperator (symbol : String)
  | badLiteral (literal field : String) (fault : LiteralFault)
  | unknownOperator (symbol : String)
  /-- The handler of a field has no rule for the operator. -/
  | noPredicate (selector operator : String) (arguments : List String)
  | malformedFilter (error : Filter.SyntaxError)
  | invalidArgument (fault : ArgumentFault)
  | unknownEntity (name : String)
  | operandMismatch (mismatch : OperandMismatch)
  deriving DecidableEq

/-- The cause in words. -/
def QueryError.message : QueryError → String
  | .unresolvedField selector owner segment =>
    "Can't resolve field '" ++ segment ++ "' on type " ++ owner ++ " (selector '" ++ selector ++
      "')"
  | .invalidSelector selector fault => "Invalid selector '" ++ selector ++ "': " ++ fault.message
  | .unsupportedType type => "Type is not supported: " ++ type.text
  | .illegalOperator symbol => "Invalid operator symbol: '" ++ symbol ++ "'"
  | .badLiteral literal field fault =>
    "Can't parse value '" ++ literal ++ "' for field '" ++ field ++ "': " ++ fault.message
  | .unknownOperator symbol => "Unknown operator: " ++ symbol
  | .noPredicate selector operator arguments =>
    "Can't build predicate with selector: " ++ selector ++ " operator: " ++ operator ++
      " value: [" ++ ", ".intercalate arguments ++ "]"
  | .malformedFilter error =>
    "Syntax error at position " ++ Numeral.decimal error.position ++ ": " ++ error.fault.message
  | .invalidArgument fault => "Invalid argument: " ++ fault.message
  | .unknownEntity name => "Can't find entity with name: " ++ name
  | .operandMismatch mismatch => mismatch.message

/-- A comparison as it is written in a filter. -/
structure ComparisonText where
  selector : String
  operator : String
  arguments : List String
  deriving DecidableEq

/-- A query could not be compiled: the cause, and the comparison at fault, if it was one. -/
structure CompilationError where
  cause : QueryError
  comparison : Option ComparisonText
  deriving DecidableEq

/-- A failure outside of a comparison. -/
def CompilationError.ofCause (cause : QueryError) : CompilationError := ⟨cause, none⟩

/-- The failure in words. -/
def CompilationError.message (e : CompilationError) : String :=
  "Query compilation failed: " ++ e.cause.message

end EntityQuery
