import EntityQuery.Text.Blank

/-!
# Tokens of the filter language

A filter such as `name=='Car 1';(size=gt=3,active=istrue='')` is made of words, quoted arguments,
operators and punctuation. Some characters are reserved: a word is a run of characters that are
not, and the reserved ones start every other token. Blanks are reserved, and part of no token but
a quoted argument.
-/

namespace EntityQuery.Filter

/-- A token of a filter. -/
inductive Token where
  /-- A run of unreserved characters: a selector, a bare argument or one of the words that join
  constraints. -/
  | word (text : String)
  /-- An argument that was written between quotes, its escapes undone. -/
  | quoted (text : String)
  /-- A comparison operator. -/
  | operator (text : String)
  | leftParen
  | rightParen
  | semicolon
  | comma
  /-- The end of the filter. -/
  | eof
  deriving DecidableEq

/-- A token and the number of characters in front of it. -/
structure PlacedToken where
  token : Token
  position : Nat
  deriving DecidableEq

namespace Token

/-- Whether the token joins two constraints that both have to hold. -/
def isAnd : Token → Bool
  | .semicolon => true
  | .word text => text = "and"
  | _ => false

/-- Whether the token joins two constraints of which one has to hold. -/
def isOr : Token → Bool
  | .comma => true
  | .word text => text = "or"
  | _ => false

/-- The token as error messages name it. -/
def display : Token → String
  | .word text => text
  | .quoted text => "'" ++ text ++ "'"
  | .operator text => text
  | .leftParen => "("
  | .rightParen => ")"
  | .semicolon => ";"
  | .comma => ","
  | .eof => "end of input"

end Token

/-- The characters that end a word. -/
def isReserved (c : Char) : Bool :=
  c ∈ ['"', '\'', '(', ')', ';', ',', '=', '<', '>', '!', '~'] || Text.isBlank c

/-- What is wrong with the text of a filter. -/
inductive SyntaxFault where
  /-- An operator between equals signs lacks the second; what there is of it. -/
  | unterminatedOperator (start : String)
  | loneExclamation
  | unterminatedQuote
  | unexpectedCharacter (c : Char)
  | expectedSelector (found : Token)
  | expectedOperator (found : Token)
  | expectedArgument (found : Token)
  | expectedParen (found : Token)
  | unexpectedToken (found : Token)
  deriving DecidableEq

def SyntaxFault.message : SyntaxFault → String
  | .unterminatedOperator start => "unterminated operator '" ++ start ++ "'"
  | .loneExclamation => "expected '=' after '!'"
  | .unterminatedQuote => "unterminated quoted string"
  | .unexpectedCharacter c => "unexpected character '" ++ String.singleton c ++ "'"
  | .expectedSelector found => "expected selector, found '" ++ found.display ++ "'"
  | .expectedOperator found => "expected operator, found '" ++ found.display ++ "'"
  | .expectedArgument found => "expected argument, found '" ++ found.display ++ "'"
  | .expectedParen found => "expected ')', found '" ++ found.display ++ "'"
  | .unexpectedToken found => "unexpected '" ++ found.display ++ "'"

/-- A fault and the position that it is reported at. -/
structure SyntaxError where
  position : Nat
  fault : SyntaxFault
  deriving DecidableEq

end EntityQuery.Filter
