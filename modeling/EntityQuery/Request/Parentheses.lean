import EntityQuery.Text.Blank

/-!
# Optional parentheses

Lists of columns, keys and numbers may stand between one pair of parentheses.
-/

namespace EntityQuery

/-- The characters without blanks at the ends, and then without one surrounding pair of
parentheses, if there is one. -/
def unwrapParentheses (cs : List Char) : List Char :=
  let trimmed := Text.trimChars cs
  match trimmed with
  | '(' :: rest =>
    match rest.reverse with
    | ')' :: inner => inner.reverse
    | _ => trimmed
  | _ => trimmed

end EntityQuery
