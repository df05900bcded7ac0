import EntityQuery.Floating.Text
import EntityQuery.Value.Basic

/-!
# The text of a value

How a value is shown in a query and in a row: strings and characters between single quotes, with
nothing escaped, lists between parentheses, and records between braces behind their type.
-/

namespace EntityQuery

/-- A text between single quotes. -/
def quoted (s : String) : String := "'" ++ s ++ "'"

mutual

def Value.display : Value → String
  | .null => "NULL"
  | .boolean b => if b then "true" else "false"
  | .character c => quoted (String.singleton c)
  | .integer n => Numeral.decimal n.toInt
  | .floating p x => x.text p
  | .text s => quoted s
  | .dateTime t => t.millisText
  | .constant name => name
  | .list items => "(" ++ displayItems items ++ ")"
  | .record r => r.display

/-- The values of a list with a comma between them. -/
def displayItems : List Value → String
  | [] => ""
  | [v] => v.display
  | v :: vs => v.display ++ ", " ++ displayItems vs

def Record.display : Record → String
  | ⟨type, fields⟩ => type ++ " \x7b" ++ displayFields fields ++ " \x7d"

/-- The fields of a record, each behind a blank, with a comma between them. -/
def displayFields : List (String × Value) → String
  | [] => ""
  | [(name, v)] => " " ++ name ++ ": " ++ v.display
  | (name, v) :: rest => " " ++ name ++ ": " ++ v.display ++ "," ++ displayFields rest

end

end EntityQuery
