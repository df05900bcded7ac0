/-!
# Cutting at a separator

`splitChars` cuts a list of characters at every occurrence of a separator, so that joining the
pieces with the separator gives the list back. There is always at least one piece. `cutLast` cuts at
the last occurrence only.
-/

namespace EntityQuery.Text

/-- The pieces between the separators, in order; an empty list is one empty piece. -/
def splitChars (separator : Char) : List Char → List (List Char)
  | [] => [[]]
  | c :: cs =>
    if c = separator then [] :: splitChars separator cs
    else
      match splitChars separator cs with
      | [] => [[c]]
      | piece :: rest => (c :: piece) :: rest

/-- The last piece and everything in front of the separator before it, if there is a separator. -/
def cutLast (separator : Char) (cs : List Char) : Option (List Char × List Char) :=
  match cs.reverse.span (· ≠ separator) with
  | (_, []) => none
  | (tail, _ :: front) => some (front.reverse, tail.reverse)

theorem splitChars_ne_nil (separator : Char) (cs : List Char) :
    splitChars separator cs ≠ [] := by
  induction cs with
  | nil => simp [splitChars]
  | cons c cs ih =>
    by_cases h : c = separator
    · simp [splitChars, h]
    · simp only [splitChars, h, if_false]
      split <;> simp

end EntityQuery.Text
