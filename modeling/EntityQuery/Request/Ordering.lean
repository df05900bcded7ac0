import EntityQuery.Config
import EntityQuery.Request.Parentheses

/-!
# Compiling an ordering

An ordering is written as `(engine.name.asc,id.desc)`: paths, each with a direction behind its last
point. A path that is given twice keeps its last direction, and the keys come out in order of the
text of their selectors. A key has to be a single value, so no path may fan out.
-/

namespace EntityQuery

/-- The direction of a key. -/
inductive Direction where
  | ascending
  | descending
  deriving DecidableEq

def Direction.text : Direction → String
  | .ascending => "ASC"
  | .descending => "DESC"

/-- Reads a direction, in any case. -/
def Direction.read? (cs : List Char) : Option Direction :=
  let word := cs.map Char.toLower
  if word = "asc".toList then some .ascending
  else if word = "desc".toList then some .descending
  else none

/-- A key that rows are ordered by. -/
structure OrderKey where
  path : Path
  direction : Direction
  deriving DecidableEq

def OrderKey.text (k : OrderKey) : String := k.path.text ++ " " ++ k.direction.text

namespace Config

/-- Reads an entry of an ordering: a selector and a direction. -/
def readSortEntry (entry : List Char) : Except QueryError (String × Direction) :=
  let fault := QueryError.invalidArgument (.sortEntry (String.ofList entry))
  match Text.cutLast '.' entry with
  | none => .error fault
  | some (selector, direction) =>
    match selector, Direction.read? direction with
    | _ :: _, some d => .ok (String.ofList selector, d)
    | _, _ => .error fault

def compileKey (config : Config) (root : String) (entry : String × Direction) :
    Except QueryError OrderKey := do
  let (path, _) ← config.resolvePath root entry.1
  if path.isMultiValued then throw (.invalidArgument (.unindexedSort entry.1))
  else return ⟨path, entry.2⟩

/-- The entries of an ordering; blanks have no meaning in it. -/
def sortEntries (sort : String) : List (List Char) :=
  (Text.splitChars ',' (unwrapParentheses (sort.toList.filter (!Text.isBlank ·)))).filter (· ≠ [])

def compileSort (config : Config) (root sort : String) : Except QueryError (List OrderKey) := do
  let entries ← (sortEntries sort).mapM readSortEntry
  -- a selector that comes again only changes the direction of its key
  let keyed := entries.foldl (fun keyed (selector, d) => Keyed.insert selector d keyed) []
  keyed.mapM (config.compileKey root)

end Config

end EntityQuery
