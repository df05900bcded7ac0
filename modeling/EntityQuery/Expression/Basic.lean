import EntityQuery.Filter.Node
import EntityQuery.Schema.Path
import EntityQuery.Value.Text

/-!
# Expressions

What a compiled filter is made of, and what can be projected: literals, paths, comparisons, checks
of a single operand, membership in a list, and the connectives of logic.
-/

namespace EntityQuery

open EntityQuery.Filter (Junction)

/-- A comparison of two operands. -/
inductive Relation where
  | eq
  | ne
  | lt
  | le
  | gt
  | ge
  | like
  | startsWith
  | endsWith
  | contains
  deriving DecidableEq

def Relation.text : Relation → String
  | .eq => "="
  | .ne => "!="
  | .lt => "<"
  | .le => "<="
  | .gt => ">"
  | .ge => ">="
  | .like => "LIKE"
  | .startsWith => "STARTS WITH"
  | .endsWith => "ENDS WITH"
  | .contains => "CONTAINS"

/-- A check of one operand. -/
inductive Check where
  | isNull
  | isNotNull
  | isEmpty
  | isNotEmpty
  | isTrue
  | isFalse
  deriving DecidableEq

def Check.text : Check → String
  | .isNull => "IS NULL"
  | .isNotNull => "IS NOT NULL"
  | .isEmpty => "IS EMPTY"
  | .isNotEmpty => "IS NOT EMPTY"
  | .isTrue => "IS TRUE"
  | .isFalse => "IS FALSE"

/-- The text of a junction between two expressions. -/
def junctionText : Junction → String
  | .and => "AND"
  | .or => "OR"

/-- An expression over a record. -/
inductive Expression where
  | literal (v : Value)
  | path (p : Path)
  | logical (junction : Junction) (left right : Expression)
  | compare (relation : Relation) (left right : Expression)
  | not (operand : Expression)
  | lower (operand : Expression)
  | check (check : Check) (operand : Expression)
  /-- Membership in a list of values, or its opposite. -/
  | member (operand : Expression) (items : List Value) (negated : Bool)

namespace Expression

/-- The paths of an expression, in the order in which they stand in it. -/
def paths : Expression → List Path
  | .literal _ => []
  | .path p => [p]
  | .logical _ l r => l.paths ++ r.paths
  | .compare _ l r => l.paths ++ r.paths
  | .not e => e.paths
  | .lower e => e.paths
  | .check _ e => e.paths
  | .member e _ _ => e.paths

/-- Whether no part of the expression is a path. -/
def isConstant : Expression → Bool
  | .literal _ => true
  | .path _ => false
  | .logical _ l r => l.isConstant && r.isConstant
  | .compare _ l r => l.isConstant && r.isConstant
  | .not e => e.isConstant
  | .lower e => e.isConstant
  | .check _ e => e.isConstant
  | .member e _ _ => e.isConstant

def text : Expression → String
  | .literal v => v.display
  | .path p => p.text
  | .logical j l r => "(" ++ l.text ++ " " ++ junctionText j ++ " " ++ r.text ++ ")"
  | .compare op l r => "(" ++ l.text ++ " " ++ op.text ++ " " ++ r.text ++ ")"
  | .not e => "NOT " ++ e.text
  | .lower e => "LOWER(" ++ e.text ++ ")"
  | .check c e => e.text ++ " " ++ c.text
  | .member e items negated =>
    e.text ++ (if negated then " NOT IN " else " IN ") ++ "(" ++ displayItems items ++ ")"

end Expression

end EntityQuery
