/-!
# Matching texts

Patterns in which `%` stands for any run of characters and `_` for a single one, and the search for
a text within another.

A pattern is matched a character at a time. The row of a pattern tells for every prefix of the
text, from the empty one on, whether the pattern matches it; a further character of the pattern
makes a new row from it. So the work is the product of the two lengths, whatever the pattern.
-/

namespace EntityQuery.Text

/-- Whether any entry up to a position holds, for every position. -/
def runningAny (seen : Bool) : List Bool → List Bool
  | [] => []
  | b :: bs => (seen || b) :: runningAny (seen || b) bs

/-- The row of a pattern with one more character. -/
def likeRow (text : List Char) (row : List Bool) (p : Char) : List Bool :=
  if p = '%' then runningAny false row
  -- what ends in a character is not empty; a longer prefix is reached from the one before it
  else false :: List.zipWith (fun c reached => reached && (p = '_' || p = c)) text row

/-- Whether a text matches a pattern with the wildcards `%` and `_`. -/
def like (text pattern : List Char) : Bool :=
  ((pattern.foldl (likeRow text) (true :: text.map fun _ => false)).getLast?).getD false

/-- Whether the characters occur somewhere in the text, one behind the other. -/
def occursIn (part : List Char) : List Char → Bool
  | [] => part.isEmpty
  | c :: cs => part.isPrefixOf (c :: cs) || occursIn part cs

end EntityQuery.Text
