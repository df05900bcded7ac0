import EntityQuery.Proofs.Condition.Compilation

/-!
# The fault of a filter

A filter is compiled as a whole or not at all. Nothing can fail but the ends of its tree
(`Node.ends`): the comparisons, and the junctions that have no children. Compiling a tree fails as
it fails along its ends, each compiled on its own (`compileNode_eq_error`). So the error is that of
the first end with a fault, from left to right, and says nothing of any other: it names the
comparison, if it is one, and no comparison where a junction lacks its children
(`compileNode_first_fault`).
-/

namespace EntityQuery

open EntityQuery.Filter (Node Junction)

namespace Filter.Node

mutual

/-- The ends of a tree, from left to right: the comparisons and the junctions without children. -/
def ends : Node → List Node
  | .comparison selector operator arguments => [.comparison selector operator arguments]
  | .logical junction [] => [.logical junction []]
  | .logical _ (n :: ns) => n.ends ++ endsOf ns

def endsOf : List Node → List Node
  | [] => []
  | n :: ns => n.ends ++ endsOf ns

end

/-- The ends of several trees, one tree after the other. -/
theorem endsOf_eq_flatMap (ns : List Node) : endsOf ns = ns.flatMap ends := by
  induction ns with
  | nil => rfl
  | cons n ns ih => rw [endsOf, List.flatMap_cons, ih]

/-- A junction with children is not to blame itself; its ends are those of its children. -/
theorem ends_logical_cons (junction : Junction) (n : Node) (ns : List Node) :
    (Node.logical junction (n :: ns)).ends = (n :: ns).flatMap ends := by
  rw [ends, endsOf_eq_flatMap, List.flatMap_cons]

end Filter.Node

namespace Config

variable {config : Config} {root : String} {junction : Junction} {err : CompilationError}

/-- The error that an end of a tree is blamed with. -/
inductive FaultAt (config : Config) (root : String) : Node → CompilationError → Prop
  | comparison {selector symbol : String} {arguments : List String} {cause : QueryError}
    (fails : config.compileComparison root selector symbol arguments = .error cause) :
    FaultAt config root (.comparison selector symbol arguments)
      ⟨cause, some ⟨selector, symbol, arguments⟩⟩
  | childless (junction : Junction) :
    FaultAt config root (.logical junction []) ⟨.invalidArgument (.noChildren junction), none⟩

/-- A comparison fails with its own fault and carries its own text. -/
theorem compileComparison_eq_error {selector symbol : String} {arguments : List String} :
    config.compileNode root (.comparison selector symbol arguments) = .error err ↔
      config.FaultAt root (.comparison selector symbol arguments) err := by
  rw [compileNode]
  cases compiled : config.compileComparison root selector symbol arguments with
  | ok e =>
    refine iff_of_false (by rintro ⟨⟩) ?_
    rintro ⟨fails⟩
    cases compiled.symm.trans fails
  | error cause =>
    constructor
    · rintro ⟨⟩
      exact .comparison compiled
    · rintro ⟨fails⟩
      cases compiled.symm.trans fails
      rfl

/-- A junction without children fails with a fault that names no comparison. -/
theorem compileChildless_eq_error :
    config.compileNode root (.logical junction []) = .error err ↔
      config.FaultAt root (.logical junction []) err := by
  rw [compileNode, compileChildren]
  constructor
  · rintro ⟨⟩
    exact .childless junction
  · rintro ⟨⟩
    rfl

/-- An end of a tree has a fault when it does not compile on its own. -/
theorem compileNode_end_eq_error {n m : Node} (hm : m ∈ n.ends) :
    config.compileNode root m = .error err ↔ config.FaultAt root m err := by
  induction n using Node.induct with
  | comparison selector symbol arguments =>
    rw [Node.ends, List.mem_singleton] at hm
    rw [hm, compileComparison_eq_error]
  | logical junction children ih =>
    cases children with
    | nil =>
      rw [Node.ends, List.mem_singleton] at hm
      rw [hm, compileChildless_eq_error]
    | cons n ns =>
      rw [Node.ends_logical_cons] at hm
      obtain ⟨child, hchild, hm⟩ := List.mem_flatMap.mp hm
      exact ih child hchild hm

/-- Of further children the first that fails is the one that counts, whatever is in front. -/
theorem compileFurther_eq_error {before : Expression} {ns : List Node} :
    config.compileFurther root junction before ns = .error err ↔
      FailsFirst (config.compileNode root) ns err := by
  induction ns generalizing before with
  | nil =>
    rw [compileFurther]
    exact iff_of_false (by rintro ⟨⟩) not_failsFirst_nil
  | cons n ns ih =>
    rw [compileFurther, failsFirst_cons_iff]
    cases config.compileNode root n with
    | error other => simp
    | ok next => simp [ih]

/-- A junction fails as the first of its children that does. The compilation starts with the first
child and folds the others onto it, and this is where both agree. -/
theorem compileChildren_eq_error {n : Node} {ns : List Node} :
    config.compileNode root (.logical junction (n :: ns)) = .error err ↔
      FailsFirst (config.compileNode root) (n :: ns) err := by
  rw [compileNode, compileChildren, failsFirst_cons_iff]
  cases config.compileNode root n with
  | error other => simp
  | ok first => simp [compileFurther_eq_error]

/-- A tree fails as its ends do, compiled one by one. -/
theorem compileNode_eq_error {n : Node} :
    config.compileNode root n = .error err ↔ FailsFirst (config.compileNode root) n.ends err := by
  induction n using Node.induct generalizing err with
  | comparison selector symbol arguments =>
    rw [Node.ends, failsFirst_cons_iff, or_iff_left fun h => not_failsFirst_nil h.2]
  | logical junction children ih =>
    cases children with
    | nil => rw [Node.ends, failsFirst_cons_iff, or_iff_left fun h => not_failsFirst_nil h.2]
    | cons n ns =>
      rw [compileChildren_eq_error, Node.ends_logical_cons]
      exact failsFirst_flatMap_iff fun child hchild e => ih child hchild

/-- A filter compiles all or nothing. It does if no junction is without children and every
comparison compiles on its own; else the error is that of the leftmost fault, with the comparison
that is at fault and no other. -/
theorem compileNode_first_fault (config : Config) (root : String) (n : Node) :
    ((∃ e, config.compileNode root n = .ok e) ↔
      n.Populated ∧ ∀ c ∈ n.leaves, config.Compiles root c) ∧
    ∀ err, config.compileNode root n = .error err ↔
      ∃ before fault behind, n.ends = before ++ fault :: behind ∧
        (∀ sound ∈ before, ∀ other, ¬config.FaultAt root sound other) ∧
        config.FaultAt root fault err := by
  refine ⟨compileNode_ok_iff, fun err => compileNode_eq_error.trans ?_⟩
  -- Both sides split the ends alike; an end compiles exactly if there is no fault at it.
  refine exists_congr fun before => exists_congr fun fault => exists_congr fun behind => ?_
  refine and_congr_right fun split => and_congr (forall₂_congr fun sound hsound => ?_) ?_
  · have hend : sound ∈ n.ends := split ▸ List.mem_append_left _ hsound
    simp only [← compileNode_end_eq_error hend]
    cases config.compileNode root sound <;> simp
  · have hend : fault ∈ n.ends := split ▸ List.mem_append_right _ List.mem_cons_self
    exact compileNode_end_eq_error hend

end Config

end EntityQuery
