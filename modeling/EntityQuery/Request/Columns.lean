import EntityQuery.Config
import EntityQuery.Request.Parentheses

/-!
# Compiling a list of columns

Columns are written as `(name,description)`: fields of the root entity itself, in the order in
which they are wanted.
-/

namespace EntityQuery.Config

def compileColumn (config : Config) (root : String) (name : List Char) : Except QueryError Path :=
  if name.any fun c => c = '.' || c = '[' then
    .error (.invalidArgument (.nestedColumn (String.ofList name)))
  else (config.resolvePath root (String.ofList name)).map (·.1)

def columnNames (select : String) : List (List Char) :=
  ((Text.splitChars ',' (unwrapParentheses select.toList)).map Text.trimChars).filter (· ≠ [])

/-- The paths of the text of a list of columns. -/
def compileSelect (config : Config) (root select : String) : Except QueryError (List Path) :=
  (columnNames select).mapM (config.compileColumn root)

end EntityQuery.Config
