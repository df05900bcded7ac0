import EntityQuery.Keyed

/-!
# Comparison operators

An operator of the filter language is known by its symbols, and two operators count as the same
when they share one. There are twenty-seven built-in operators; others can be added, and may take
over symbols of the built-in ones. The table of aliases says which operator a symbol stands for:
the one that was added last.
-/

namespace EntityQuery

/-- A built-in operator. -/
inductive Builtin where
  | equals
  | notEquals
  | isIn
  | isNotIn
  | isNull
  | isNotNull
  | equalsIgnoreCase
  | notEqualsIgnoreCase
  | like
  | notLike
  | likeIgnoreCase
  | startsWith
  | startsWithIgnoreCase
  | endsWith
  | endsWithIgnoreCase
  | isEmpty
  | isNotEmpty
  | contains
  | containsIgnoreCase
  | greater
  | greaterOrEquals
  | lessThan
  | lessThanOrEquals
  | isTrue
  | isFalse
  | before
  | after
  deriving DecidableEq

namespace Builtin

/-- The built-in operators, in the order in which they are listed. -/
def all : List Builtin :=
  [.equals, .notEquals, .isIn, .isNotIn, .isNull, .isNotNull, .equalsIgnoreCase,
   .notEqualsIgnoreCase, .like, .notLike, .likeIgnoreCase, .startsWith, .startsWithIgnoreCase,
   .endsWith, .endsWithIgnoreCase, .isEmpty, .isNotEmpty, .contains, .containsIgnoreCase, .greater,
   .greaterOrEquals, .lessThan, .lessThanOrEquals, .isTrue, .isFalse, .before, .after]

def name : Builtin → String
  | .equals => "equals"
  | .notEquals => "not-equals"
  | .isIn => "in"
  | .isNotIn => "not-in"
  | .isNull => "is-null"
  | .isNotNull => "is-not-null"
  | .equalsIgnoreCase => "equals-ignore-case"
  | .notEqualsIgnoreCase => "not-equals-ignore-case"
  | .like => "like"
  | .notLike => "not-like"
  | .likeIgnoreCase => "like-ignore-case"
  | .startsWith => "starts-with"
  | .startsWithIgnoreCase => "starts-with-ignore-case"
  | .endsWith => "ends-with"
  | .endsWithIgnoreCase => "ends-with-ignore-case"
  | .isEmpty => "is-empty"
  | .isNotEmpty => "is-not-empty"
  | .contains => "contains"
  | .containsIgnoreCase => "contains-ignore-case"
  | .greater => "greater"
  | .greaterOrEquals => "greater-or-equals"
  | .lessThan => "less-than"
  | .lessThanOrEquals => "less-than-or-equals"
  | .isTrue => "is-true"
  | .isFalse => "is-false"
  | .before => "before"
  | .after => "after"

/-- The symbols that the operator is written with. -/
def symbols : Builtin → List String
  | .equals => ["=eq=", "=="]
  | .notEquals => ["=ne=", "!="]
  | .isIn => ["=in="]
  | .isNotIn => ["=notin=", "=notIn=", "=out="]
  | .isNull => ["=isnull=", "=isNull="]
  | .isNotNull => ["=notnull=", "=notNull=", "=isnotnull=", "=isNotNull="]
  | .equalsIgnoreCase => ["=eqic=", "=equalsignorecase=", "=equalsIgnoreCase="]
  | .notEqualsIgnoreCase => ["=noteqic=", "=notequalsignorecase=", "=notEqualsIgnoreCase="]
  | .like => ["=like="]
  | .notLike => ["=notlike=", "=notLike="]
  | .likeIgnoreCase => ["=likeic=", "=likeignorecase=", "=likeIgnoreCase="]
  | .startsWith => ["=startsw=", "=startswith=", "=startsWith="]
  | .startsWithIgnoreCase => ["=startswic=", "=startswithignorecase=", "=startsWithIgnoreCase="]
  | .endsWith => ["=endsw=", "=endswith=", "=endsWith="]
  | .endsWithIgnoreCase => ["=endswic=", "=endswithignorecase=", "=endsWithIgnoreCase="]
  | .isEmpty => ["=isempty=", "=isEmpty=", "=empty="]
  | .isNotEmpty => ["=notempty=", "=notEmpty=", "=isnotempty=", "=isNotEmpty="]
  | .contains => ["=con=", "=contains="]
  | .containsIgnoreCase => ["=conic=", "=containsignorecase=", "=containsIgnoreCase="]
  | .greater => ["=gt=", ">", "=greater="]
  | .greaterOrEquals => ["=goe=", "=ge=", ">=", "=greaterorequals=", "=greaterOrEquals="]
  | .lessThan => ["=lt=", "<", "=lessthan=", "=lessThan="]
  | .lessThanOrEquals => ["=loe=", "=le=", "<=", "=lessthanorequals=", "=lessThanOrEquals="]
  | .isTrue => ["=istrue=", "=isTrue="]
  | .isFalse => ["=isfalse=", "=isFalse="]
  | .before => ["=before="]
  | .after => ["=after="]

end Builtin

/-- A comparison operator; one without a name is anonymous. -/
structure ComparisonOperator where
  name : Option String
  symbols : List String
  deriving DecidableEq

def Builtin.operator (b : Builtin) : ComparisonOperator := ⟨some b.name, b.symbols⟩

namespace ComparisonOperator

/-- Whether two operators count as the same: they share a symbol. -/
def same (a b : ComparisonOperator) : Bool := a.symbols.any (b.symbols.contains ·)

/-- Whether an operator counts as a built-in one. -/
def is (a : ComparisonOperator) (b : Builtin) : Bool := a.symbols.any (b.symbols.contains ·)

/-- What an operator is called: its name, or the first of its symbols. -/
def display (a : ComparisonOperator) : String :=
  match a.name, a.symbols with
  | some name, _ => name
  | none, symbol :: _ => symbol
  | none, [] => "<anonymous>"

end ComparisonOperator

/-- Whether a text may be the symbol of an added operator: letters between equals signs, or one of
five short symbols. -/
def isOperatorSymbol (symbol : String) : Bool :=
  symbol ∈ [">", ">=", "<", "<=", "!="] ||
    match symbol.toList with
    | '=' :: rest =>
      match rest.reverse with
      | '=' :: letters => letters ≠ [] && letters.all Char.isAlpha
      | _ => false
    | _ => false

/-- What is wrong with the first added operator that cannot be written; an operator without symbols
cannot. -/
def firstIllegalSymbol : List ComparisonOperator → Option String
  | [] => none
  | op :: ops =>
    if op.symbols = [] then some (op.display ++ " (no aliases)")
    else
      match op.symbols.find? (!isOperatorSymbol ·) with
      | some symbol => some symbol
      | none => firstIllegalSymbol ops

/-- Which operator each symbol stands for, in order of symbol. -/
structure AliasTable where
  entries : List (String × ComparisonOperator)

namespace AliasTable

/-- Makes the symbols of an operator stand for it. -/
def add (t : AliasTable) (op : ComparisonOperator) : AliasTable :=
  ⟨op.symbols.foldl (fun entries symbol => Keyed.insert symbol op entries) t.entries⟩

/-- Adds operators in turn; of two with a symbol in common the later one has it. -/
def merge (t : AliasTable) (ops : List ComparisonOperator) : AliasTable := ops.foldl add t

/-- The symbols of the built-in operators. -/
def builtin : AliasTable := merge ⟨[]⟩ (Builtin.all.map Builtin.operator)

/-- The operator that a symbol stands for. -/
def lookup? (t : AliasTable) (symbol : String) : Option ComparisonOperator :=
  Keyed.find? symbol t.entries

/-- Whether a symbol stands for an operator. -/
def contains (t : AliasTable) (symbol : String) : Bool := (t.lookup? symbol).isSome

/-- All symbols, sorted. -/
def symbols (t : AliasTable) : List String := Keyed.keys t.entries

end AliasTable

end EntityQuery
