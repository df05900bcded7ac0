import EntityQuery.Floating.Text
import EntityQuery.Value.Basic

/-!
# JSON text of values

Records are objects of their fields, in order of name; characters, constants and moments are
strings. A value is first turned into a small document, which is then written on one line or
indented by two blanks a level.
-/

namespace EntityQuery

/-- A JSON document; what is no string, array or object is held as its text. -/
inductive JsonDoc where
  | plain (text : String)
  | string (s : String)
  | array (items : List JsonDoc)
  | object (members : List (String × JsonDoc))

namespace JsonDoc

def hexDigit (n : Nat) : Char := Nat.digitChar n

/-- A character inside a JSON string: quotes, backslashes and control characters are escaped. -/
def escape (c : Char) : List Char :=
  if c = '"' then ['\\', '"']
  else if c = '\\' then ['\\', '\\']
  else if c.toNat = 8 then ['\\', 'b']
  else if c.toNat = 9 then ['\\', 't']
  else if c.toNat = 10 then ['\\', 'n']
  else if c.toNat = 12 then ['\\', 'f']
  else if c.toNat = 13 then ['\\', 'r']
  else if c.toNat < 32 then
    ['\\', 'u', '0', '0', hexDigit (c.toNat / 16), hexDigit (c.toNat % 16)]
  else [c]

def stringText (s : String) : String := "\"" ++ String.ofList (s.toList.flatMap escape) ++ "\""

mutual

/-- The document on one line, without blanks. -/
def compact : JsonDoc → String
  | .plain text => text
  | .string s => stringText s
  | .array items => "[" ++ compactItems items ++ "]"
  | .object members => "\x7b" ++ compactMembers members ++ "\x7d"

/-- The items of an array with a comma between them. -/
def compactItems : List JsonDoc → String
  | [] => ""
  | [d] => d.compact
  | d :: ds => d.compact ++ "," ++ compactItems ds

/-- The members of an object with a comma between them. -/
def compactMembers : List (String × JsonDoc) → String
  | [] => ""
  | [(name, d)] => stringText name ++ ":" ++ d.compact
  | (name, d) :: ds => stringText name ++ ":" ++ d.compact ++ "," ++ compactMembers ds

end

/-- The start of a line at an indentation level. -/
def newLine (level : Nat) : String := String.ofList ('\n' :: List.replicate (2 * level) ' ')

mutual

/-- The document with every item and member on a line of its own. -/
def indented (level : Nat) : JsonDoc → String
  | .plain text => text
  | .string s => stringText s
  | .array [] => "[]"
  | .array items => "[" ++ indentedItems (level + 1) items ++ newLine level ++ "]"
  | .object [] => "\x7b\x7d"
  | .object members => "\x7b" ++ indentedMembers (level + 1) members ++ newLine level ++ "\x7d"

/-- The items of an array, each on its line. -/
def indentedItems (level : Nat) : List JsonDoc → String
  | [] => ""
  | [d] => newLine level ++ d.indented level
  | d :: ds => newLine level ++ d.indented level ++ "," ++ indentedItems level ds

/-- The members of an object, each on its line. -/
def indentedMembers (level : Nat) : List (String × JsonDoc) → String
  | [] => ""
  | [(name, d)] => newLine level ++ stringText name ++ ": " ++ d.indented level
  | (name, d) :: ds =>
    newLine level ++ stringText name ++ ": " ++ d.indented level ++ "," ++
      indentedMembers level ds

end

end JsonDoc

mutual

def Value.toJson : Value → JsonDoc
  | .null => .plain "null"
  | .boolean b => .plain (if b then "true" else "false")
  | .character c => .string (String.singleton c)
  | .integer n => .plain (Numeral.decimal n.toInt)
  | .floating p x => .plain (x.jsonText p)
  | .text s => .string s
  | .dateTime t => .string t.exactText
  | .constant name => .string name
  | .list items => .array (jsonItems items)
  | .record r => r.toJson

def jsonItems : List Value → List JsonDoc
  | [] => []
  | v :: vs => v.toJson :: jsonItems vs

def Record.toJson : Record → JsonDoc
  | ⟨_, fields⟩ => .object (jsonMembers fields)

/-- The documents of the fields of a record. -/
def jsonMembers : List (String × Value) → List (String × JsonDoc)
  | [] => []
  | (name, v) :: rest => (name, v.toJson) :: jsonMembers rest

end

end EntityQuery
