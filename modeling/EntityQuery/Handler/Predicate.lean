import EntityQuery.Handler.Basic

/-!
# Rules for operators

The predicates that operators stand for. A table of rules pairs built-in operators with what they
make of a path and an operand, which may be nothing: most comparisons take a single value. The
first rule whose operator the given one counts as decides.
-/

namespace EntityQuery

/-- An operator and the predicate that it makes. -/
abbrev Rule := Builtin × Option Expression

def findRule? (rules : List Rule) (op : ComparisonOperator) : Option Rule :=
  rules.find? fun rule => op.is rule.1

/-- The predicate of an operator by a table. -/
def applyRules (rules : List Rule) (op : ComparisonOperator) : Option Expression :=
  (findRule? rules op).bind (·.2)

/-- A comparison of a path with the value of the operand. -/
def compareWith (relation : Relation) (p : Path) (x : Operand) : Option Expression :=
  x.single?.map fun v => .compare relation (.path p) (.literal v)

/-- A comparison of a path with the value of the operand, both in lower case. -/
def compareLowered (relation : Relation) (p : Path) (x : Operand) : Option Expression :=
  x.single?.map fun v => .compare relation (.lower (.path p)) (.lower (.literal v))

/-- A comparison for equality, or a check for null if the operand is null. -/
def equalOrNull (relation : Relation) (check : Check) (p : Path) (x : Operand) :
    Option Expression :=
  x.single?.map fun v =>
    if v.isNull then .check check (.path p) else .compare relation (.path p) (.literal v)

/-- Equality, membership and checks for null, which every type has. -/
def baseRules (p : Path) (x : Operand) : List Rule :=
  [(.equals, equalOrNull .eq .isNull p x),
   (.notEquals, equalOrNull .ne .isNotNull p x),
   (.isIn, some (.member (.path p) x.toList false)),
   (.isNotIn, some (.member (.path p) x.toList true)),
   (.isNull, some (.check .isNull (.path p))),
   (.isNotNull, some (.check .isNotNull (.path p)))]

/-- The comparisons by order. -/
def orderRules (p : Path) (x : Operand) : List Rule :=
  [(.greater, compareWith .gt p x),
   (.greaterOrEquals, compareWith .ge p x),
   (.lessThan, compareWith .lt p x),
   (.lessThanOrEquals, compareWith .le p x)]

/-- The comparisons of moments that have names of their own. -/
def dateRules (p : Path) (x : Operand) : List Rule :=
  [(.before, compareWith .lt p x), (.after, compareWith .gt p x)]

/-- The checks of truth values. -/
def booleanRules (p : Path) : List Rule :=
  [(.isTrue, some (.check .isTrue (.path p))), (.isFalse, some (.check .isFalse (.path p)))]

/-- The comparisons of strings. -/
def stringRules (p : Path) (x : Operand) : List Rule :=
  [(.equalsIgnoreCase, compareLowered .eq p x),
   (.notEqualsIgnoreCase, compareLowered .ne p x),
   (.like, compareWith .like p x),
   (.notLike, (compareWith .like p x).map .not),
   (.likeIgnoreCase, compareLowered .like p x),
   (.startsWith, compareWith .startsWith p x),
   (.startsWithIgnoreCase, compareLowered .startsWith p x),
   (.endsWith, compareWith .endsWith p x),
   (.endsWithIgnoreCase, compareLowered .endsWith p x),
   (.contains, compareWith .contains p x),
   (.containsIgnoreCase, compareLowered .contains p x),
   (.isEmpty, some (.check .isEmpty (.path p))),
   (.isNotEmpty, some (.check .isNotEmpty (.path p)))]

/-- The predicate that every type has for an operator. -/
def basePredicate (p : Path) (x : Operand) (op : ComparisonOperator) : Option Expression :=
  applyRules (baseRules p x) op

def stringPredicate (p : Path) (x : Operand) (op : ComparisonOperator) : Option Expression :=
  applyRules (stringRules p x) op <|> basePredicate p x op

def numericPredicate (p : Path) (x : Operand) (op : ComparisonOperator) : Option Expression :=
  applyRules (orderRules p x) op <|> basePredicate p x op

/-- The predicate of an operator on moments. A list has no place in time, whatever else its
operator may count as. -/
def datePredicate (p : Path) (x : Operand) (op : ComparisonOperator) : Option Expression :=
  match findRule? (dateRules p x) op with
  | some rule => rule.2
  | none => numericPredicate p x op

/-- The predicate of an operator on truth values. -/
def booleanPredicate (p : Path) (x : Operand) (op : ComparisonOperator) : Option Expression :=
  applyRules (booleanRules p) op <|> basePredicate p x op

end EntityQuery
