import EntityQuery.Error
import EntityQuery.Expression.Basic
import EntityQuery.Text.Matching
import EntityQuery.Truth
import EntityQuery.Value.Order

/-!
# Evaluation

What an expression is of a record. A path leads to a list of candidates: one for each value that it
reaches, several when it goes through a collection, none when it ends at a null or at an empty
collection. A comparison is made with every candidate, and holds when it holds for one of them.

An expression has a list of values and a truth. One of them is what the expression is made for, and
the other is read off it: the truth of a path is that of its candidates, the value of a predicate
is its truth, with null for unknown.
-/

namespace EntityQuery

open EntityQuery.Filter (Junction)

/-! ## Paths -/

/-- What a step leads to from a value. -/
def PathStep.follow : PathStep → Value → List Value
  | .property name, .record r => [r.get name]
  | .any, .list items => items
  | .index i, .list items => (items[i.toNat]?).toList
  | _, _ => []

/-- What the steps of a path lead to from some values. -/
def PathStep.followAll : List PathStep → List Value → List Value
  | [], values => values
  | step :: steps, values => followAll steps (values.flatMap step.follow)

/-- The values that a path leads to from a record. The record itself is not one of them. -/
def Path.candidates (p : Path) (r : Record) : List Value :=
  if p.isRoot then [] else PathStep.followAll p.steps [.record r]

/-! ## Operators -/

/-- The characters of a value that is text: a string, a constant or a character. -/
def Value.characters? : Value → Option (List Char)
  | .text s => some s.toList
  | .constant name => some name.toList
  | .character c => some [c]
  | _ => none

/-- Whether a comparison holds between values in the given order; a comparison of texts never
does. -/
def Relation.holdsOf : Relation → Ordering → Bool
  | .eq, o => o = .eq
  | .ne, o => o ≠ .eq
  | .lt, o => o = .lt
  | .le, o => o ≠ .gt
  | .gt, o => o = .gt
  | .ge, o => o ≠ .lt
  | _, _ => false

/-- The test that a comparison of texts makes; other comparisons go by order. -/
def Relation.textTest? : Relation → Option (List Char → List Char → Bool)
  | .like => some Text.like
  | .startsWith => some fun text part => part.isPrefixOf text
  | .endsWith => some fun text part => part.isSuffixOf text
  | .contains => some fun text part => Text.occursIn part text
  | _ => none

def Relation.mismatch (op : Relation) (left right : Value) : OperandMismatch :=
  ⟨op.text, left.kind, right.kind⟩

/-- Compares two values. With null the outcome is unknown. -/
def Relation.apply (op : Relation) (left right : Value) : Except OperandMismatch Truth :=
  if left.isNull || right.isNull then .ok .unknown
  else
    match op.textTest? with
    | some test =>
      match left.characters?, right.characters? with
      | some text, some part => .ok (.ofBool (test text part))
      | _, _ => .error (op.mismatch left right)
    | none =>
      match left.compare right with
      | some o => .ok (.ofBool (op.holdsOf o))
      | none => .error (op.mismatch left right)

/-- The truth of a value; unknown for null. -/
def Value.truth : Value → Except OperandMismatch Truth
  | .null => .ok .unknown
  | .boolean b => .ok (.ofBool b)
  | v => .error ⟨"predicate", v.kind, "boolean"⟩

/-- Whether a string or a list is empty; unknown for null. -/
def Value.emptiness (op : Check) : Value → Except OperandMismatch Truth
  | .null => .ok .unknown
  | .text s => .ok (.ofBool s.isEmpty)
  | .list items => .ok (.ofBool items.isEmpty)
  | v => .error ⟨op.text, v.kind, "none"⟩

/-- Checks a value. -/
def Check.apply : Check → Value → Except OperandMismatch Truth
  | .isNull, v => .ok (.ofBool v.isNull)
  | .isNotNull, v => .ok (.ofBool !v.isNull)
  | .isEmpty, v => v.emptiness .isEmpty
  | .isNotEmpty, v => (v.emptiness .isNotEmpty).map Truth.not
  | .isTrue, v => v.truth
  | .isFalse, v => v.truth.map Truth.not

/-- The value in lower case; of a character it is the first of its lower-case form. -/
def Value.lower : Value → Except OperandMismatch Value
  | .null => .ok .null
  | .text s => .ok (.text (Text.lowercase s))
  | .character c => .ok (.character ((Text.lowerChar c).headD c))
  | v => .error ⟨"LOWER", v.kind, "none"⟩

/-- Whether a value equals one of a list, or none of them if negated; unknown for null. -/
def Value.memberOf (items : List Value) (negated : Bool) (v : Value) : Truth :=
  if v.isNull then .unknown
  else .ofBool ((items.any fun item => v.compare item = some .eq) != negated)

def Truth.value : Truth → Value
  | .true => .boolean Bool.true
  | .false => .boolean Bool.false
  | .unknown => .null

def joinTruths : Junction → Truth → Truth → Truth
  | .and => Truth.and
  | .or => Truth.or

/-! ## Expressions -/

/-- What an expression is of a record. -/
structure Evaluation where
  values : Except OperandMismatch (List Value)
  truth : Except OperandMismatch Truth

namespace Evaluation

def ofTruth (truth : Except OperandMismatch Truth) : Evaluation :=
  ⟨truth.map fun t => [t.value], truth⟩

/-- A predicate that is tested for every candidate, in order, and holds when it does for one. -/
def anyOf (test : Value → Except OperandMismatch Truth)
    (candidates : Except OperandMismatch (List Value)) : Except OperandMismatch Truth := do
  let outcomes ← (← candidates).mapM test
  return Truth.any outcomes

/-- All pairs of two lists, the first list outermost. -/
def pairs (ls rs : List Value) : List (Value × Value) :=
  ls.flatMap fun l => rs.map fun r => (l, r)

end Evaluation

namespace Expression

open Evaluation

/-- Evaluates an expression on a record. -/
def evaluate (r : Record) : Expression → Evaluation
  | .literal v => ⟨.ok [v], v.truth⟩
  | .path p =>
    let candidates := p.candidates r
    ⟨.ok candidates, anyOf Value.truth (.ok candidates)⟩
  | .logical j left right =>
    let l := left.evaluate r
    let m := right.evaluate r
    -- both sides are evaluated, so a failure on the right is met even if the left one decides
    ofTruth do
      let a ← l.truth
      let b ← m.truth
      return joinTruths j a b
  | .compare op left right =>
    let l := left.evaluate r
    let m := right.evaluate r
    ofTruth do
      let ls ← l.values
      let rs ← m.values
      let outcomes ← (pairs ls rs).mapM fun (a, b) => op.apply a b
      return Truth.any outcomes
  | .not e =>
    let x := e.evaluate r
    ofTruth (x.truth.map Truth.not)
  | .lower e =>
    let x := e.evaluate r
    ⟨x.values.bind (·.mapM Value.lower), .error ⟨"LOWER", "string", "boolean"⟩⟩
  | .check c e =>
    let x := e.evaluate r
    ofTruth (anyOf c.apply x.values)
  | .member e items negated =>
    let x := e.evaluate r
    ofTruth (anyOf (fun v => .ok (v.memberOf items negated)) x.values)

/-- The truth of a predicate. -/
def test (r : Record) (e : Expression) : Except OperandMismatch Truth := (e.evaluate r).truth

/-- The candidates that an expression has. -/
def values (r : Record) (e : Expression) : Except OperandMismatch (List Value) :=
  (e.evaluate r).values

/-- The one value of an expression, for a column or a key: null if there is no candidate, and a
list if there are several. -/
def project (r : Record) (e : Expression) : Except OperandMismatch Value :=
  (e.values r).map fun
    | [] => .null
    | [v] => v
    | vs => .list vs

/-- Whether a record is kept by a filter; what is unknown is not. -/
def keeps (r : Record) (e : Expression) : Except OperandMismatch Bool :=
  (e.test r).map (· = .true)

end Expression

end EntityQuery
