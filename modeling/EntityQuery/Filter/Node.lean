import EntityQuery.Filter.Token

/-!
# Filter trees

A filter is a comparison of a selector with arguments, or a list of filters of which all or one
have to hold. The tree is written back in the syntax of filters, every list of filters between
parentheses; an argument that a bare word could not spell is written between quotes.
-/

namespace EntityQuery.Filter

/-- How the children of a tree are joined. -/
inductive Junction where
  | and
  | or
  deriving DecidableEq

/-- The punctuation between the children. -/
def Junction.separator : Junction → String
  | .and => ";"
  | .or => ","

/-- A filter. -/
inductive Node where
  | comparison (selector operator : String) (arguments : List String)
  | logical (junction : Junction) (children : List Node)

namespace Node

/-- The children under one junction; one child is itself. -/
def join (junction : Junction) : List Node → Node
  | [child] => child
  | children => .logical junction children

mutual

/-- The number of comparisons in the tree. -/
def comparisons : Node → Nat
  | .comparison .. => 1
  | .logical _ children => comparisonsOf children

/-- The number of comparisons in a list of trees. -/
def comparisonsOf : List Node → Nat
  | [] => 0
  | n :: ns => n.comparisons + comparisonsOf ns

end

mutual

/-- Whether two trees are equal. -/
def equal : Node → Node → Bool
  | .comparison s o as, .comparison t p bs => s = t && o = p && as = bs
  | .logical j as, .logical k bs => j = k && equalAll as bs
  | _, _ => false

/-- Whether two lists of trees are equal. -/
def equalAll : List Node → List Node → Bool
  | [], [] => true
  | a :: as, b :: bs => equal a b && equalAll as bs
  | _, _ => false

end

mutual

theorem equal_iff : (a b : Node) → (equal a b = true ↔ a = b)
  | .comparison s o as, .comparison t p bs => by simp [equal, and_assoc]
  | .comparison .., .logical .. => by simp [equal]
  | .logical .., .comparison .. => by simp [equal]
  | .logical j as, .logical k bs => by simp [equal, equalAll_iff as bs]

theorem equalAll_iff : (as bs : List Node) → (equalAll as bs = true ↔ as = bs)
  | [], [] => by simp [equalAll]
  | [], _ :: _ => by simp [equalAll]
  | _ :: _, [] => by simp [equalAll]
  | a :: as, b :: bs => by simp [equalAll, equal_iff a b, equalAll_iff as bs]

end

instance : DecidableEq Node := fun a b =>
  decidable_of_iff (equal a b = true) (equal_iff a b)

end Node

/-- A character inside single quotes. -/
def escapeQuoted (c : Char) : List Char :=
  if c = '\\' ∨ c = '\'' then ['\\', c] else [c]

/-- An argument as it is written: bare if it is a word, else between single quotes. -/
def argumentText (argument : String) : String :=
  let cs := argument.toList
  if cs = [] ∨ cs.any isReserved then
    "'" ++ String.ofList (cs.flatMap escapeQuoted) ++ "'"
  else argument

/-- Arguments with a comma between them. -/
def argumentsText : List String → String
  | [] => ""
  | [a] => argumentText a
  | a :: as => argumentText a ++ "," ++ argumentsText as

mutual

/-- The filter in its own syntax. -/
def Node.text : Node → String
  | .comparison selector operator [argument] => selector ++ operator ++ argumentText argument
  | .comparison selector operator arguments =>
    selector ++ operator ++ "(" ++ argumentsText arguments ++ ")"
  | .logical junction children => "(" ++ textOfAll junction.separator children ++ ")"

/-- The filters of a list with a separator between them. -/
def Node.textOfAll (separator : String) : List Node → String
  | [] => ""
  | [n] => n.text
  | n :: ns => n.text ++ separator ++ textOfAll separator ns

end

end EntityQuery.Filter
