import EntityQuery.Text.Ranges

/-!
# Blank characters

The characters with the Unicode property White_Space, and the operation that looks at nothing else:
trimming a text at both ends.
-/

namespace EntityQuery.Text

/-- Code points with the property White_Space. -/
def blankRanges : List (Nat × Nat) :=
  [(9, 13), (32, 32), (133, 133), (160, 160), (5760, 5760), (8192, 8202), (8232, 8233),
   (8239, 8239), (8287, 8287), (12288, 12288)]

/-- Whether a character is white space in any script. -/
def isBlank (c : Char) : Bool := inRanges blankRanges c.toNat

/-- The characters without the blanks at either end. -/
def trimChars (cs : List Char) : List Char :=
  ((cs.dropWhile isBlank).reverse.dropWhile isBlank).reverse

/-- The text without the blanks at either end. -/
def trim (s : String) : String := String.ofList (trimChars s.toList)

end EntityQuery.Text
