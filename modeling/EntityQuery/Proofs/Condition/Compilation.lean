import EntityQuery.Proofs.Failure
import EntityQuery.Proofs.Filter.Tree
import EntityQuery.Request.Condition

/-!
# The shape of a compiled filter

The predicate of a junction is made from the predicates of its children, joined from the left
(`compileNode_logical_eq_ok`). A tree compiles when every junction in it has a child and every
comparison has a predicate (`compileNode_ok_iff`).
-/

namespace EntityQuery

open EntityQuery.Filter (Node Junction)

/-- Every junction of a tree has a child. -/
inductive Filter.Node.Populated : Node → Prop
  | comparison (selector operator : String) (arguments : List String) :
    Populated (.comparison selector operator arguments)
  | logical {junction : Junction} {children : List Node} (nonempty : children ≠ [])
    (each : ∀ n ∈ children, Populated n) : Populated (.logical junction children)

theorem Filter.Node.populated_logical_iff {junction : Junction} {children : List Node} :
    (Node.logical junction children).Populated ↔ children ≠ [] ∧ ∀ n ∈ children, n.Populated :=
  ⟨fun | .logical nonempty each => ⟨nonempty, each⟩,
    fun ⟨nonempty, each⟩ => .logical nonempty each⟩

namespace Config

variable {config : Config} {root : String} {junction : Junction}

/-- A comparison has a predicate. -/
def Compiles (config : Config) (root : String) (c : ComparisonText) : Prop :=
  ∃ e, config.compileComparison root c.selector c.operator c.arguments = .ok e

/-- A selector stands for a path when the catalog resolves it and the handlers extend the root by
every field of it. -/
theorem resolvePath_eq_ok {selector : String} {p : Path} {leaf : ResolvedField} :
    config.resolvePath root selector = .ok (p, leaf) ↔
      ∃ s, config.catalog.resolve root selector = .ok s ∧ config.registry.pathOf s = .ok p ∧
        s.leaf = leaf := by
  constructor
  · intro h
    obtain ⟨s, hs, h⟩ := bind_eq_ok.mp h
    obtain ⟨q, hq, h⟩ := bind_eq_ok.mp h
    cases h
    exact ⟨s, hs, hq, rfl⟩
  · rintro ⟨s, hs, hp, rfl⟩
    exact bind_eq_ok.mpr ⟨s, hs, bind_eq_ok.mpr ⟨p, hp, rfl⟩⟩

/-- What becomes of a comparison: its operator is known, its selector resolves, its path and its
operand are those of the handlers, and the handler of the leaf has a rule. -/
theorem compileComparison_eq_ok {selector symbol : String} {arguments : List String}
    {e : Expression} :
    config.compileComparison root selector symbol arguments = .ok e ↔
      ∃ op s p handler operand, config.operator symbol = .ok op ∧
        config.catalog.resolve root selector = .ok s ∧ config.registry.pathOf s = .ok p ∧
        config.registry.lookup s.leaf.type = .ok handler ∧
        handler.coerce (config.context s.leaf) arguments = .ok operand ∧
        handler.predicate p operand op = some e := by
  constructor
  · intro h
    obtain ⟨op, hop, h⟩ := bind_eq_ok.mp h
    obtain ⟨⟨p, leaf⟩, hpath, h⟩ := bind_eq_ok.mp h
    obtain ⟨s, hs, hp, rfl⟩ := resolvePath_eq_ok.mp hpath
    obtain ⟨handler, hh, h⟩ := bind_eq_ok.mp h
    obtain ⟨operand, hoperand, h⟩ := bind_eq_ok.mp h
    refine ⟨op, s, p, handler, operand, hop, hs, hp, hh, hoperand, ?_⟩
    split at h
    · next made hmade =>
      cases h
      exact hmade
    · cases h
  · rintro ⟨op, s, p, handler, operand, hop, hs, hp, hh, hoperand, he⟩
    have hpath := resolvePath_eq_ok.mpr ⟨s, hs, hp, rfl⟩
    refine bind_eq_ok.mpr ⟨op, hop, bind_eq_ok.mpr ⟨(p, s.leaf), hpath, ?_⟩⟩
    refine bind_eq_ok.mpr ⟨handler, hh, bind_eq_ok.mpr ⟨operand, hoperand, ?_⟩⟩
    rw [he]
    rfl

/-- A tree that is one comparison compiles as the comparison does; only the failure is worded with
its text. -/
theorem compileNode_comparison_eq_ok {selector operator : String} {arguments : List String}
    {e : Expression} :
    config.compileNode root (.comparison selector operator arguments) = .ok e ↔
      config.compileComparison root selector operator arguments = .ok e := by
  rw [compileNode]
  cases config.compileComparison root selector operator arguments with
  | ok e' => exact Iff.of_eq (by rw [Except.ok.injEq, Except.ok.injEq])
  | error cause => exact iff_of_false (by rintro ⟨⟩) (by rintro ⟨⟩)

/-- Further children are joined one by one to what there is. By induction on them: the accumulator
grows, so it is generalized. -/
theorem compileFurther_eq_ok {before : Expression} {ns : List Node} {e : Expression} :
    config.compileFurther root junction before ns = .ok e ↔
      ∃ es, List.Forall₂ (fun n e => config.compileNode root n = .ok e) ns es ∧
        es.foldl (Expression.logical junction) before = e := by
  induction ns generalizing before with
  | nil =>
    rw [compileFurther]
    constructor
    · intro h
      exact ⟨[], .nil, Except.ok.inj h⟩
    · rintro ⟨es, hes, rfl⟩
      cases hes
      rfl
  | cons n ns ih =>
    rw [compileFurther]
    cases hn : config.compileNode root n with
    | error cause =>
      refine iff_of_false (by rintro ⟨⟩) ?_
      rintro ⟨es, hes, -⟩
      cases hes with
      | cons h _ => cases hn.symm.trans h
    | ok next =>
      rw [ih]
      constructor
      · rintro ⟨es, hes, he⟩
        exact ⟨next :: es, .cons hn hes, he⟩
      · rintro ⟨es, hes, he⟩
        cases hes with
        | cons h hes =>
          cases hn.symm.trans h
          exact ⟨_, hes, he⟩

/-- A junction is the predicates of its children, joined from the left. There has to be a first
child, for the fold starts from it. -/
theorem compileNode_logical_eq_ok {children : List Node} {e : Expression} :
    config.compileNode root (.logical junction children) = .ok e ↔
      ∃ first es, List.Forall₂ (fun n e => config.compileNode root n = .ok e) children
        (first :: es) ∧ es.foldl (Expression.logical junction) first = e := by
  rw [compileNode]
  cases children with
  | nil =>
    rw [compileChildren]
    refine iff_of_false (by rintro ⟨⟩) ?_
    rintro ⟨first, es, h, -⟩
    cases h
  | cons n ns =>
    rw [compileChildren]
    cases hn : config.compileNode root n with
    | error cause =>
      refine iff_of_false (by rintro ⟨⟩) ?_
      rintro ⟨first, es, h, -⟩
      cases h with
      | cons h _ => cases hn.symm.trans h
    | ok first =>
      rw [compileFurther_eq_ok]
      constructor
      · rintro ⟨es, hes, he⟩
        exact ⟨first, es, .cons hn hes, he⟩
      · rintro ⟨first', es, h, he⟩
        cases h with
        | cons h hes =>
          cases hn.symm.trans h
          exact ⟨es, hes, he⟩

/-- A tree compiles when it is populated and all its comparisons compile. Whether it does is thus a
matter of its comparisons, and how they are grouped has no part in it. -/
theorem compileNode_ok_iff {n : Node} :
    (∃ e, config.compileNode root n = .ok e) ↔
      n.Populated ∧ ∀ c ∈ n.leaves, config.Compiles root c := by
  induction n using Node.induct with
  | comparison selector operator arguments =>
    simp only [compileNode_comparison_eq_ok, Node.leaves, List.mem_singleton, forall_eq]
    exact ⟨fun h => ⟨.comparison .., h⟩, fun h => h.2⟩
  | logical junction children ih =>
    simp only [compileNode_logical_eq_ok]
    constructor
    · rintro ⟨e, first, es, h, -⟩
      -- a junction compiles only if each of its children does
      have each : ∀ n ∈ children, ∃ e, config.compileNode root n = .ok e := by
        intro n hn
        obtain ⟨e, -, he⟩ := ok_of_mem_mapM (mapM_eq_ok.mpr h) hn
        exact ⟨e, he⟩
      refine ⟨.logical (by rintro rfl; cases h) fun n hn => ((ih n hn).mp (each n hn)).1, ?_⟩
      intro c hc
      rw [Node.leaves] at hc
      obtain ⟨n, hn, hc⟩ := Node.mem_leavesOf.mp hc
      exact ((ih n hn).mp (each n hn)).2 c hc
    · rintro ⟨hp, hc⟩
      obtain ⟨nonempty, each⟩ := Node.populated_logical_iff.mp hp
      have compiled : ∀ n ∈ children, ∃ e, config.compileNode root n = .ok e := fun n hn =>
        (ih n hn).mpr ⟨each n hn, fun c h => hc c (Node.mem_leaves_of_child hn h)⟩
      obtain ⟨es, hes⟩ := mapM_ok_of_forall compiled
      cases es with
      | nil =>
        cases mapM_eq_ok.mp hes
        exact absurd rfl nonempty
      | cons first es => exact ⟨_, first, es, mapM_eq_ok.mp hes, rfl⟩

end Config

end EntityQuery
