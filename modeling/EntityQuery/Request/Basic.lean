import EntityQuery.Expression.Basic
import EntityQuery.Request.Ordering

/-!
# Requests

A compiled query: which entity it reads, which records it keeps, in which order and which part of
them, and what it makes of each.
-/

namespace EntityQuery

/-- What a row shows of a record. -/
inductive Projection where
  /-- The record itself. -/
  | root
  | paths (paths : List Path)
  | expressions (expressions : List Expression)

/-- A compiled query. -/
structure Request where
  entity : String
  predicate : Option Expression
  projection : Projection
  ordering : List OrderKey
  offset : Option UInt64
  size : Option UInt64

namespace Request

def columnsText : Projection → String
  | .root => "*"
  | .paths paths => ", ".intercalate (paths.map Path.text)
  | .expressions expressions => ", ".intercalate (expressions.map Expression.text)

/-- The text of a request, in the manner of a query language for tables. -/
def text (r : Request) : String :=
  "SELECT " ++ columnsText r.projection ++ " FROM " ++ r.entity ++ " " ++
    Text.lowercase r.entity ++
    (match r.predicate with
      | some e => " WHERE " ++ e.text
      | none => "") ++
    (if r.ordering = [] then ""
      else " ORDER BY " ++ ", ".intercalate (r.ordering.map OrderKey.text)) ++
    (match r.size with
      | some n => " LIMIT " ++ Numeral.decimal n.toNat
      | none => "") ++
    (match r.offset with
      | some n => " OFFSET " ++ Numeral.decimal n.toNat
      | none => "")

end Request

end EntityQuery
