import EntityQuery.Error

/-!
# Filter trees, as a theory

A filter tree has any number of children at each junction. What is proved of all trees is proved by
`Node.induct`, with the claim at hand for every child, and what is read off a tree is read off its
`leaves`, the comparisons from left to right.
-/

namespace EntityQuery.Filter.Node

/-- Induction on trees: a claim holds of every tree when it holds of comparisons, and of a junction
whose children all have it. -/
@[elab_as_elim]
theorem induct {P : Node → Prop}
    (comparison : ∀ selector operator arguments, P (.comparison selector operator arguments))
    (logical : ∀ junction children, (∀ n ∈ children, P n) → P (.logical junction children)) :
    ∀ n, P n
  | .comparison selector operator arguments => comparison selector operator arguments
  | .logical junction children =>
    logical junction children fun n _ => induct comparison logical n

mutual

/-- The comparisons of a tree, from left to right. -/
def leaves : Node → List ComparisonText
  | .comparison selector operator arguments => [⟨selector, operator, arguments⟩]
  | .logical _ children => leavesOf children

def leavesOf : List Node → List ComparisonText
  | [] => []
  | n :: ns => n.leaves ++ leavesOf ns

end

/-- The leaves of several trees, one tree after the other. -/
theorem leavesOf_eq_flatMap (ns : List Node) : leavesOf ns = ns.flatMap leaves := by
  induction ns with
  | nil => rfl
  | cons n ns ih => rw [leavesOf, List.flatMap_cons, ih]

theorem mem_leavesOf {c : ComparisonText} {ns : List Node} :
    c ∈ leavesOf ns ↔ ∃ n ∈ ns, c ∈ n.leaves := by
  rw [leavesOf_eq_flatMap, List.mem_flatMap]

/-- The leaves of a child are leaves of its parent. -/
theorem mem_leaves_of_child {c : ComparisonText} {junction : Junction} {children : List Node}
    {n : Node} (hn : n ∈ children) (hc : c ∈ n.leaves) :
    c ∈ (Node.logical junction children).leaves := by
  rw [leaves]
  exact mem_leavesOf.mpr ⟨n, hn, hc⟩

end EntityQuery.Filter.Node
