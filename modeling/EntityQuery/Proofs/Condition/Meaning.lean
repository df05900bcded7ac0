import EntityQuery.Expression.Evaluation
import EntityQuery.Proofs.Condition.Builtin
import EntityQuery.Proofs.Expression.Joining
import EntityQuery.Proofs.Handler.Literal
import EntityQuery.Sample

/-!
# The meaning of a filter tree

What a compiled filter is of a record can be told from the tree alone: every comparison has the
truth of its own predicate, and every junction joins the truths of its children, however many
there are, in Kleene's logic. The children are looked at from left to right, and the first failure
is that of the tree. `test_compileNode` says so of every tree that compiles.

Three facts follow from it. When no comparison fails, a row is kept exactly when the tree holds as
an ordinary Boolean formula over "this comparison is true" (`keeps_compileNode`), for unknown
cannot turn into true without a negation above it. So a conjunction keeps a row that all of its
children keep, and a disjunction one that some child keeps. And nested junctions of one kind can be
regrouped at will (`Node.Regroups`).
-/

namespace EntityQuery

open EntityQuery.Filter (Node Junction)

/-! ## Reading a tree -/

namespace Filter.Node

mutual

/-- The truth of a tree, given that of its comparisons. -/
def truth (leaf : ComparisonText → Except OperandMismatch Truth) :
    Node → Except OperandMismatch Truth
  | .comparison selector operator arguments => leaf ⟨selector, operator, arguments⟩
  | .logical junction children => (truths leaf children).map (Truth.join junction)

/-- The truths of a list of trees, up to the first failure. -/
def truths (leaf : ComparisonText → Except OperandMismatch Truth) :
    List Node → Except OperandMismatch (List Truth)
  | [] => .ok []
  | n :: ns => do
    let t ← n.truth leaf
    let ts ← truths leaf ns
    return t :: ts

end

mutual

/-- Whether a tree holds as a Boolean formula, given which of its comparisons do. -/
def holds (leaf : ComparisonText → Bool) : Node → Bool
  | .comparison selector operator arguments => leaf ⟨selector, operator, arguments⟩
  | .logical .and children => allHold leaf children
  | .logical .or children => someHolds leaf children

def allHold (leaf : ComparisonText → Bool) : List Node → Bool
  | [] => true
  | n :: ns => n.holds leaf && allHold leaf ns

def someHolds (leaf : ComparisonText → Bool) : List Node → Bool
  | [] => false
  | n :: ns => n.holds leaf || someHolds leaf ns

end

/-- Nested junctions of one kind, grouped in another way: the children of an inner junction may
stand in its place, here or anywhere within the tree. -/
inductive Regroups : Node → Node → Prop
  | splice {junction : Junction} {before inner behind : List Node} (h : inner ≠ []) :
    Regroups (.logical junction (before ++ .logical junction inner :: behind))
      (.logical junction (before ++ (inner ++ behind)))
  | child {junction : Junction} {before behind : List Node} {n m : Node} (h : Regroups n m) :
    Regroups (.logical junction (before ++ n :: behind)) (.logical junction (before ++ m :: behind))
  | refl (n : Node) : Regroups n n
  | symm {n m : Node} (h : Regroups n m) : Regroups m n
  | trans {n m l : Node} (h : Regroups n m) (h' : Regroups m l) : Regroups n l

variable {leaf : ComparisonText → Except OperandMismatch Truth}

/-- The truths of a list of trees are those of each of them, up to the first failure. -/
theorem truths_eq_mapM (leaf : ComparisonText → Except OperandMismatch Truth) (ns : List Node) :
    truths leaf ns = ns.mapM (truth leaf) := by
  induction ns with
  | nil => rfl
  | cons n ns ih =>
    rw [mapM_cons_eq, ← ih, truths]
    cases n.truth leaf with
    | error e => rfl
    | ok t => cases truths leaf ns <;> rfl

/-- A tree of which no comparison fails does not fail. -/
theorem truth_ok {n : Node} (h : ∀ c ∈ n.leaves, ∃ t, leaf c = .ok t) :
    ∃ t, n.truth leaf = .ok t := by
  induction n using induct with
  | comparison selector operator arguments => exact h _ (List.mem_singleton_self _)
  | logical junction children ih =>
    have each : ∀ n ∈ children, ∃ t, n.truth leaf = .ok t := fun n hn =>
      ih n hn fun c hc => h c (mem_leaves_of_child hn hc)
    obtain ⟨ts, hts⟩ := mapM_ok_of_forall each
    rw [← truths_eq_mapM] at hts
    exact ⟨Truth.join junction ts, by rw [truth, hts]; rfl⟩

/-- A conjunction holds when all of its children do. -/
theorem allHold_eq_true {leaf : ComparisonText → Bool} {ns : List Node} :
    allHold leaf ns = true ↔ ∀ n ∈ ns, n.holds leaf = true := by
  induction ns with
  | nil => simp [allHold]
  | cons n ns ih => simp [allHold, ih]

/-- A disjunction holds when one of its children does. -/
theorem someHolds_eq_true {leaf : ComparisonText → Bool} {ns : List Node} :
    someHolds leaf ns = true ↔ ∃ n ∈ ns, n.holds leaf = true := by
  induction ns with
  | nil => simp [someHolds]
  | cons n ns ih => simp [someHolds, ih]

/-- A tree is true when it holds as an ordinary formula over the comparisons that are true. -/
theorem truth_eq_true_iff {n : Node} {t : Truth} (h : n.truth leaf = .ok t) :
    t = .true ↔ n.holds (fun c => leaf c = .ok .true) = true := by
  induction n using induct generalizing t with
  | comparison selector operator arguments =>
    rw [truth] at h
    simp [holds, h]
  | logical junction children ih =>
    rw [truth, truths_eq_mapM] at h
    obtain ⟨ts, hts, rfl⟩ := map_eq_ok.mp h
    cases junction with
    | and =>
      rw [holds, allHold_eq_true]
      refine Truth.every_eq_true.trans ⟨fun every n hn => ?_, fun all t ht => ?_⟩
      · obtain ⟨t, ht, hnt⟩ := ok_of_mem_mapM hts hn
        exact (ih n hn hnt).mp (every t ht)
      · obtain ⟨n, hn, hnt⟩ := mem_of_mem_mapM hts ht
        exact (ih n hn hnt).mpr (all n hn)
    | or =>
      rw [holds, someHolds_eq_true]
      refine Truth.anyOne_eq_true.trans ⟨fun ht => ?_, fun ⟨n, hn, hold⟩ => ?_⟩
      · obtain ⟨n, hn, hnt⟩ := mem_of_mem_mapM hts ht
        exact ⟨n, hn, (ih n hn hnt).mp rfl⟩
      · obtain ⟨t, ht, hnt⟩ := ok_of_mem_mapM hts hn
        exact (ih n hn hnt).mpr hold ▸ ht

/-! ## Regrouping -/

/-- Regrouping leaves the comparisons and their order alone. -/
theorem Regroups.leaves_eq {n m : Node} (h : n.Regroups m) : n.leaves = m.leaves := by
  induction h with
  | splice => simp [leaves, leavesOf_eq_flatMap]
  | child _ ih => simp [leaves, leavesOf_eq_flatMap, ih]
  | refl n => rfl
  | symm _ ih => exact ih.symm
  | trans _ _ ih ih' => exact ih.trans ih'

/-- No junction becomes childless by regrouping, which would keep the tree from compiling. This is
what the condition on inner junctions is for. -/
theorem Regroups.populated_iff {n m : Node} (h : n.Regroups m) : n.Populated ↔ m.Populated := by
  induction h with
  | splice nonempty =>
    simp [populated_logical_iff, or_imp, forall_and, nonempty]
  | child _ ih => simp [populated_logical_iff, or_imp, forall_and, ih]
  | refl n => rfl
  | symm _ ih => exact ih.symm
  | trans _ _ ih ih' => exact ih.trans ih'

/-- Regrouping does not change the truth of a tree, nor which failure comes first. -/
theorem Regroups.truth_eq {n m : Node} (h : n.Regroups m)
    (leaf : ComparisonText → Except OperandMismatch Truth) : n.truth leaf = m.truth leaf := by
  induction h with
  | @splice junction before inner behind =>
    simp only [truth, truths_eq_mapM, mapM_append_eq, mapM_cons_eq]
    cases before.mapM (truth leaf) with
    | error e => rfl
    | ok ts =>
      cases inner.mapM (truth leaf) with
      | error e => rfl
      | ok is =>
        cases behind.mapM (truth leaf) with
        | error e => rfl
        | ok bs =>
          refine congrArg Except.ok ?_
          change Truth.join junction (ts ++ Truth.join junction is :: bs) =
            Truth.join junction (ts ++ (is ++ bs))
          rw [Truth.join_append, Truth.join_cons, Truth.join_append, Truth.join_append]
  | child _ ih => simp only [truth, truths_eq_mapM, mapM_append_eq, mapM_cons_eq, ih]
  | refl n => rfl
  | symm _ ih => exact ih.symm
  | trans _ _ ih ih' => exact ih.trans ih'

end Filter.Node

namespace Config

/-- The truth of a comparison: that of its own predicate. Nothing is known of a comparison that
has none. -/
def comparisonTruth (config : Config) (root : String) (r : Record) (c : ComparisonText) :
    Except OperandMismatch Truth :=
  match config.compileComparison root c.selector c.operator c.arguments with
  | .ok e => e.test r
  | .error _ => .ok .unknown

/-- A row is kept by a tree. -/
def Keeps (config : Config) (root : String) (r : Record) (n : Node) : Prop :=
  ∃ e, config.compileNode root n = .ok e ∧ e.keeps r = .ok true

variable {config : Config} {root : String} {n : Node} {e : Expression}

/-- A comparison that compiles is of a record what its predicate is. -/
theorem comparisonTruth_eq {selector symbol : String} {arguments : List String}
    (h : config.compileComparison root selector symbol arguments = .ok e) (r : Record) :
    config.comparisonTruth root r ⟨selector, symbol, arguments⟩ = e.test r := by
  rw [comparisonTruth, h]

/-- What a compiled filter is of a record is what the tree is. -/
theorem test_compileNode (h : config.compileNode root n = .ok e) (r : Record) :
    e.test r = n.truth (config.comparisonTruth root r) := by
  induction n using Node.induct generalizing e with
  | comparison selector operator arguments =>
    rw [Node.truth, comparisonTruth_eq (compileNode_comparison_eq_ok.mp h)]
  | logical junction children ih =>
    obtain ⟨first, es, hes, rfl⟩ := compileNode_logical_eq_ok.mp h
    rw [Expression.test_foldl_logical, Node.truth, Node.truths_eq_mapM]
    have each := (List.forall₂_and_left children (first :: es)).mpr
      ⟨fun n hn e => ih n hn (e := e), hes⟩
    refine congrArg _ (mapM_eq_of_forall₂ (each.imp fun n e hne => ?_)).symm
    exact (hne.1 e hne.2).symm

/-- A row is kept exactly when the tree holds as a Boolean formula over the comparisons that are
true of it. -/
theorem keeps_compileNode (h : config.compileNode root n = .ok e) (r : Record)
    (ok : ∀ c ∈ n.leaves, ∃ t, config.comparisonTruth root r c = .ok t) :
    e.keeps r = .ok (n.holds fun c => config.comparisonTruth root r c = .ok .true) := by
  obtain ⟨t, ht⟩ := Node.truth_ok ok
  have iff := Node.truth_eq_true_iff ht
  rw [← test_compileNode h r] at ht
  rw [Expression.keeps, ht]
  exact congrArg Except.ok (Bool.eq_iff_iff.mpr (decide_eq_true_iff.trans iff))

/-- A tree keeps a row when it holds as a formula over the comparisons that are true of it. -/
theorem keeps_iff_holds (h : config.compileNode root n = .ok e) {r : Record}
    (ok : ∀ c ∈ n.leaves, ∃ t, config.comparisonTruth root r c = .ok t) :
    config.Keeps root r n ↔
      (n.holds fun c => config.comparisonTruth root r c = .ok .true) = true := by
  have kept := keeps_compileNode h r ok
  constructor
  · rintro ⟨e', he', hk⟩
    cases h.symm.trans he'
    exact Except.ok.inj (kept.symm.trans hk)
  · intro hold
    exact ⟨e, h, kept.trans (congrArg Except.ok hold)⟩

/-- Every child of a junction that compiles keeps a row when it holds as a formula. -/
theorem child_keeps_iff_holds {junction : Junction} {children : List Node}
    (h : config.compileNode root (.logical junction children) = .ok e) {r : Record}
    (ok : ∀ c ∈ (Node.logical junction children).leaves,
      ∃ t, config.comparisonTruth root r c = .ok t) {m : Node} (hm : m ∈ children) :
    config.Keeps root r m ↔
      (m.holds fun c => config.comparisonTruth root r c = .ok .true) = true := by
  obtain ⟨populated, compiled⟩ := compileNode_ok_iff.mp ⟨e, h⟩
  have each := (Node.populated_logical_iff.mp populated).2
  obtain ⟨e', he'⟩ := compileNode_ok_iff.mpr
    ⟨each m hm, fun c hc => compiled c (Node.mem_leaves_of_child hm hc)⟩
  exact keeps_iff_holds he' fun c hc => ok c (Node.mem_leaves_of_child hm hc)

/-- A conjunction keeps what all of its children keep. An unknown child keeps nothing, so nothing is
lost by looking at the kept rows only. -/
theorem keeps_and_iff {children : List Node}
    (h : config.compileNode root (.logical .and children) = .ok e) {r : Record}
    (ok : ∀ c ∈ (Node.logical .and children).leaves,
      ∃ t, config.comparisonTruth root r c = .ok t) :
    config.Keeps root r (.logical .and children) ↔ ∀ m ∈ children, config.Keeps root r m := by
  rw [keeps_iff_holds h ok, Node.holds, Node.allHold_eq_true]
  exact forall₂_congr fun m hm => (child_keeps_iff_holds h ok hm).symm

/-- A disjunction keeps what one of its children keeps. -/
theorem keeps_or_iff {children : List Node}
    (h : config.compileNode root (.logical .or children) = .ok e) {r : Record}
    (ok : ∀ c ∈ (Node.logical .or children).leaves,
      ∃ t, config.comparisonTruth root r c = .ok t) :
    config.Keeps root r (.logical .or children) ↔ ∃ m ∈ children, config.Keeps root r m := by
  rw [keeps_iff_holds h ok, Node.holds, Node.someHolds_eq_true]
  exact exists_congr fun m => and_congr_right fun hm => (child_keeps_iff_holds h ok hm).symm

/-- A tree that is regrouped still compiles, and is the same of every record. -/
theorem compileNode_regroups (h : config.compileNode root n = .ok e) {m : Node}
    (hm : n.Regroups m) :
    ∃ e', config.compileNode root m = .ok e' ∧ ∀ r, e'.test r = e.test r := by
  have compiled := compileNode_ok_iff.mp ⟨e, h⟩
  rw [hm.populated_iff, hm.leaves_eq] at compiled
  obtain ⟨e', he'⟩ := compileNode_ok_iff.mpr compiled
  refine ⟨e', he', fun r => ?_⟩
  rw [test_compileNode h, test_compileNode he', hm.truth_eq]

/-- Compiling a filter preserves the meaning of its tree: the predicate is of every record what the
tree is, given the truths of the comparisons' own predicates. When none of these fails, the row is
kept exactly when the tree holds as a Boolean formula over "this comparison is true", so a
conjunction keeps the rows that all of its children keep and a disjunction those that some child
keeps. Regrouping nested junctions of one kind changes nothing. -/
theorem compileNode_preserves_meaning (h : config.compileNode root n = .ok e) (r : Record) :
    (∀ c ∈ n.leaves, config.Compiles root c) ∧
    e.test r = n.truth (config.comparisonTruth root r) ∧
    ((∀ c ∈ n.leaves, ∃ t, config.comparisonTruth root r c = .ok t) →
      e.keeps r = .ok (n.holds fun c => config.comparisonTruth root r c = .ok .true) ∧
      ∀ children,
        (n = .logical .and children →
          (config.Keeps root r n ↔ ∀ m ∈ children, config.Keeps root r m)) ∧
        (n = .logical .or children →
          (config.Keeps root r n ↔ ∃ m ∈ children, config.Keeps root r m))) ∧
    ∀ m, n.Regroups m → ∃ e', config.compileNode root m = .ok e' ∧ e'.test r = e.test r := by
  refine ⟨(compileNode_ok_iff.mp ⟨e, h⟩).2, test_compileNode h r, fun ok => ?_, fun m hm => ?_⟩
  · refine ⟨keeps_compileNode h r ok, fun children => ⟨?_, ?_⟩⟩
    · rintro rfl
      exact keeps_and_iff h ok
    · rintro rfl
      exact keeps_or_iff h ok
  · obtain ⟨e', he', same⟩ := compileNode_regroups h hm
    exact ⟨e', he', same r⟩

/-- Cars that are active, or bear one of two names: one that is kept, one that is left out, one of
which nothing is known, and one that says something else than whether it is active. The names may
as well stand beside the first comparison. -/
theorem compileNode_preserves_meaning_car :
    let config := standard Sample.catalog
    let active := Node.comparison "active" "=istrue=" [""]
    let names := [Node.comparison "name" "==" ["Car1"], .comparison "name" "==" ["Car2"]]
    let nested := Node.logical .or [active, .logical .or names]
    let car := fun active name => Record.ofFields "Car" [("active", active), ("name", .text name)]
    let kept := car (.boolean false) "Car2"
    let rejected := car (.boolean false) "Car3"
    let unknown := Record.empty "Car"
    let failing := car (.text "yes") "Car2"
    ∃ e e', config.compileNode "Car" nested = .ok e ∧
      config.compileNode "Car" (.logical .or (active :: names)) = .ok e' ∧
      nested.truth (config.comparisonTruth "Car" kept) = .ok .true ∧
      nested.truth (config.comparisonTruth "Car" rejected) = .ok .false ∧
      nested.truth (config.comparisonTruth "Car" unknown) = .ok .unknown ∧
      (∃ m, nested.truth (config.comparisonTruth "Car" failing) = .error m) ∧
      (∃ m ∈ [active, .logical .or names], config.Keeps "Car" kept m) ∧
      ∀ r, e'.test r = e.test r := by
  intro config active names nested car kept rejected unknown failing
  have built := build_eq_standard Sample.catalog
  let isActive : Expression := .check .isTrue (.path ⟨"car", [.property "active"], .boolean⟩)
  let named (name : String) : Expression :=
    .compare .eq (.path ⟨"car", [.property "name"], .string⟩) (.literal (.text name))
  have ofActive : config.compileComparison "Car" "active" "=istrue=" [""] = .ok isActive :=
    (compileComparison_builtin_eq_ok built (b := .isTrue) (by decide)).mpr
      ⟨_, _, .single .null, rfl, rfl, rfl⟩
  have ofName (name : String) (nonempty : name ≠ "") :
      config.compileComparison "Car" "name" "==" [name] = .ok (named name) :=
    (compileComparison_builtin_eq_ok built (b := .equals) (by decide)).mpr
      ⟨_, _, .single (.text name), rfl, coerceEach_singleton nonempty rfl, rfl⟩
  have ofName1 := ofName "Car1" (by decide)
  have ofName2 := ofName "Car2" (by decide)
  have ofNames : List.Forall₂ (fun n e => config.compileNode "Car" n = .ok e) names
      [named "Car1", named "Car2"] :=
    .cons (compileNode_comparison_eq_ok.mpr ofName1)
      (.cons (compileNode_comparison_eq_ok.mpr ofName2) .nil)
  let e : Expression := .logical .or isActive (.logical .or (named "Car1") (named "Car2"))
  have he : config.compileNode "Car" nested = .ok e :=
    compileNode_logical_eq_ok.mpr ⟨_, _, .cons (compileNode_comparison_eq_ok.mpr ofActive)
      (.cons (compileNode_logical_eq_ok.mpr ⟨_, _, ofNames, rfl⟩) .nil), rfl⟩
  have meaning := compileNode_preserves_meaning he
  have isTrue : e.test kept = .ok .true := ok_of_toOption (by decide)
  have isFalse : e.test rejected = .ok .false := ok_of_toOption (by decide)
  have isUnknown : e.test unknown = .ok .unknown := ok_of_toOption (by decide)
  obtain ⟨m, fails⟩ : ∃ m, e.test failing = .error m := ⟨_, rfl⟩
  have fine : ∀ c ∈ nested.leaves, ∃ t, config.comparisonTruth "Car" kept c = .ok t := by
    intro c hc
    change c ∈ [_, _, _] at hc
    simp only [List.mem_cons, List.not_mem_nil, or_false] at hc
    obtain rfl | rfl | rfl := hc
    · exact ⟨.false, comparisonTruth_eq ofActive kept⟩
    · exact ⟨.false, comparisonTruth_eq ofName1 kept⟩
    · exact ⟨.true, comparisonTruth_eq ofName2 kept⟩
  have someChild : ∃ m ∈ [active, .logical .or names], config.Keeps "Car" kept m :=
    ((((meaning kept).2.2.1 fine).2 _).2 rfl).mp ⟨e, he, by rw [Expression.keeps, isTrue]; rfl⟩
  -- the junction of the names is spliced into the one around it
  have regrouped := @Node.Regroups.splice .or [active] names [] (List.cons_ne_nil _ _)
  obtain ⟨e', he', -⟩ := (meaning kept).2.2.2 _ regrouped
  refine ⟨e, e', he, he', (meaning kept).2.1.symm.trans isTrue,
    (meaning rejected).2.1.symm.trans isFalse, (meaning unknown).2.1.symm.trans isUnknown,
    ⟨m, (meaning failing).2.1.symm.trans fails⟩, someChild, fun r => ?_⟩
  obtain ⟨e'', he'', same⟩ := (meaning r).2.2.2 _ regrouped
  cases he'.symm.trans he''
  exact same

end Config

end EntityQuery
