/-!
# Three-valued logic

A predicate is true, false or unknown of a record. The connectives are Kleene's: unknown stands for
either of the other two, and a result is known when it is the same for both.
-/

namespace EntityQuery

/-- The truth of a predicate. -/
inductive Truth where
  | true
  | false
  | unknown
  deriving DecidableEq

namespace Truth

def ofBool : Bool → Truth
  | .true => .true
  | .false => .false

/-- The truth value, if it is known. -/
def toBool? : Truth → Option Bool
  | .true => some Bool.true
  | .false => some Bool.false
  | .unknown => none

def not : Truth → Truth
  | .true => .false
  | .false => .true
  | .unknown => .unknown

def and : Truth → Truth → Truth
  | .false, _ => .false
  | _, .false => .false
  | .true, .true => .true
  | _, _ => .unknown

def or : Truth → Truth → Truth
  | .true, _ => .true
  | _, .true => .true
  | .false, .false => .false
  | _, _ => .unknown

/-- The disjunction of a list; of nothing it is unknown. -/
def any : List Truth → Truth
  | [] => .unknown
  | [t] => t
  | t :: ts => t.or (any ts)

end Truth

end EntityQuery
