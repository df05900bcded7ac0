import EntityQuery.Handler.Builtin

/-!
# Two handlers to add

Examples of handlers that a program may put in front of the built-in ones: one that gives strings
an operator of their own, and one that treats a type the library knows nothing about as text.
-/

namespace EntityQuery.Handler

/-- The operator that asks whether a string is not empty. -/
def notEmptyOperator : ComparisonOperator := ⟨none, ["=customnotempty="]⟩

/-- Strings with an operator of their own. -/
def notEmptyString : Handler :=
  { string with
    name := "not-empty"
    predicate := fun p x op =>
      if op.same notEmptyOperator then some (.check .isNotEmpty (.path p))
      else stringPredicate p x op }

/-- Whether a type is one that only extensions know. -/
def isCustom : FieldType → Bool
  | .custom _ => true
  | _ => false

/-- Custom types, treated as text; an empty literal is the empty text. -/
def customText : Handler where
  name := "custom-string"
  supports := isCustom
  extend := Path.throughField
  coerce _ literals := .ok (Operand.ofTexts literals)
  predicate := stringPredicate

end EntityQuery.Handler
