import EntityQuery.Proofs.Alias
import EntityQuery.Proofs.Condition.Extension
import EntityQuery.Proofs.Expression.Dependence
import EntityQuery.Proofs.Handler.Builtin

/-!
# What a compiled filter reads

Whatever a handler makes of a comparison, it is made for the path of the comparison and for no
other: a rule takes the path once (`Expression.MadeFor`), compared, checked, lowered, negated or
looked for in a list. The predicates of the children of a junction are joined from the left, which
keeps their order. So a compiled filter has the paths of its comparisons, from left to right, each
as often as it is written (`Config.paths_of_compiled`). It has one at least, for a tree without
comparisons does not compile.
-/

namespace EntityQuery

open EntityQuery.Filter (Node Junction)

variable {p : Path} {x : Operand} {op : ComparisonOperator} {e : Expression}

/-! ## Rules -/

/-- What is made for a path, if anything is, has this path once and no other. -/
def Expression.MadeFor (p : Path) (made : Option Expression) : Prop := ∀ e ∈ made, e.paths = [p]

namespace Expression.MadeFor

/-- It is enough to look at the paths of what is made. -/
theorem some (h : e.paths = [p]) : MadeFor p (some e) := by
  rintro _ ⟨⟩
  exact h

/-- What is made of the operand only adds literals, which have no paths. -/
theorem map {o : Option Value} {f : Value → Expression} (h : ∀ v, (f v).paths = [p]) :
    MadeFor p (o.map f) := by
  intro e he
  obtain ⟨v, -, rfl⟩ := Option.map_eq_some_iff.mp he
  exact h v

/-- A negation has the paths of what it negates. -/
theorem not {made : Option Expression} (h : MadeFor p made) : MadeFor p (made.map .not) := by
  intro e he
  obtain ⟨operand, ho, rfl⟩ := Option.map_eq_some_iff.mp he
  exact h operand ho

/-- Rules that are tried one after the other make something for the path if each of them does. -/
theorem orElse {made rest : Option Expression} (h : MadeFor p made) (fallback : MadeFor p rest) :
    MadeFor p (made <|> rest) := by
  cases made with
  | none => exact fallback
  | some e => exact h

/-- A table of rules makes something for the path if every rule in it does. -/
theorem applyRules {rules : List Rule} (each : ∀ rule ∈ rules, MadeFor p rule.2)
    (op : ComparisonOperator) : MadeFor p (applyRules rules op) := by
  intro e he
  obtain ⟨rule, found, made⟩ := Option.bind_eq_some_iff.mp he
  exact each rule (List.mem_of_find?_eq_some found) e made

end Expression.MadeFor

open Expression (MadeFor)

theorem compareWith_madeFor (relation : Relation) : MadeFor p (compareWith relation p x) :=
  .map fun _ => rfl

theorem compareLowered_madeFor (relation : Relation) : MadeFor p (compareLowered relation p x) :=
  .map fun _ => rfl

theorem equalOrNull_madeFor (relation : Relation) (k : Check) :
    MadeFor p (equalOrNull relation k p x) := by
  refine .map fun v => ?_
  cases v.isNull <;> rfl

theorem check_madeFor (k : Check) : MadeFor p (some (.check k (.path p))) := .some rfl

theorem member_madeFor (items : List Value) (negated : Bool) :
    MadeFor p (some (.member (.path p) items negated)) := .some rfl

/-- The base rules take the path once. -/
theorem basePredicate_madeFor : MadeFor p (basePredicate p x op) := by
  refine .applyRules ?_ op
  simp only [baseRules, List.forall_mem_cons]
  exact ⟨equalOrNull_madeFor .eq .isNull, equalOrNull_madeFor .ne .isNotNull,
    member_madeFor x.toList false, member_madeFor x.toList true, check_madeFor .isNull,
    check_madeFor .isNotNull, nofun⟩

/-- The rules of strings do too. Where both sides are lowered the path is still on one side only. -/
theorem stringPredicate_madeFor : MadeFor p (stringPredicate p x op) := by
  refine .orElse (.applyRules ?_ op) basePredicate_madeFor
  simp only [stringRules, List.forall_mem_cons]
  exact ⟨compareLowered_madeFor .eq, compareLowered_madeFor .ne, compareWith_madeFor .like,
    (compareWith_madeFor .like).not, compareLowered_madeFor .like,
    compareWith_madeFor .startsWith, compareLowered_madeFor .startsWith,
    compareWith_madeFor .endsWith, compareLowered_madeFor .endsWith,
    compareWith_madeFor .contains, compareLowered_madeFor .contains, check_madeFor .isEmpty,
    check_madeFor .isNotEmpty, nofun⟩

theorem numericPredicate_madeFor : MadeFor p (numericPredicate p x op) := by
  refine .orElse (.applyRules ?_ op) basePredicate_madeFor
  simp only [orderRules, List.forall_mem_cons]
  exact ⟨compareWith_madeFor .gt, compareWith_madeFor .ge, compareWith_madeFor .lt,
    compareWith_madeFor .le, nofun⟩

theorem booleanPredicate_madeFor : MadeFor p (booleanPredicate p x op) := by
  refine .orElse (.applyRules ?_ op) basePredicate_madeFor
  simp only [booleanRules, List.forall_mem_cons]
  exact ⟨check_madeFor .isTrue, check_madeFor .isFalse, nofun⟩

/-- The rule of a moment decides alone, even if it makes nothing. -/
theorem datePredicate_madeFor : MadeFor p (datePredicate p x op) := by
  have rules : ∀ rule ∈ dateRules p x, MadeFor p rule.2 := by
    simp only [dateRules, List.forall_mem_cons]
    exact ⟨compareWith_madeFor .lt, compareWith_madeFor .gt, nofun⟩
  unfold datePredicate
  split
  · next rule found => exact rules rule (List.mem_of_find?_eq_some found)
  · exact numericPredicate_madeFor

/-- A built-in handler makes predicates for the path that it is given. -/
theorem predicate_madeFor (t : FieldType) :
    MadeFor p ((Handler.builtinFor t).predicate p x op) := by
  cases t with
  | string => exact stringPredicate_madeFor
  | numeric width => exact numericPredicate_madeFor
  | boolean => exact booleanPredicate_madeFor
  | date | dateTime => exact datePredicate_madeFor
  | _ => exact basePredicate_madeFor

/-! ## Trees -/

/-- The left fold of a junction keeps the paths in order. -/
theorem Expression.paths_foldl_logical (j : Junction) (first : Expression) (es : List Expression) :
    (es.foldl (logical j) first).paths = (first :: es).flatMap paths := by
  induction es generalizing first with
  | nil => rw [List.foldl_nil, List.flatMap_singleton]
  | cons e es ih =>
    rw [List.foldl_cons, ih, List.flatMap_cons, List.flatMap_cons, List.flatMap_cons, paths,
      List.append_assoc]

namespace Filter.Node

mutual

/-- A tree has as many leaves as it counts comparisons. -/
theorem length_leaves : (n : Node) → n.leaves.length = n.comparisons
  | .comparison .. => rfl
  | .logical _ children => by rw [leaves, comparisons, length_leavesOf children]

theorem length_leavesOf : (ns : List Node) → (leavesOf ns).length = comparisonsOf ns
  | [] => rfl
  | n :: ns => by
    rw [leavesOf, comparisonsOf, List.length_append, length_leaves n, length_leavesOf ns]

end

/-- A tree in which every junction has a child has a comparison. -/
theorem Populated.leaves_ne_nil {n : Node} (h : n.Populated) : n.leaves ≠ [] := by
  induction h with
  | comparison selector operator arguments => exact List.cons_ne_nil _ _
  | @logical junction children nonempty each ih =>
    obtain ⟨child, mem⟩ := List.exists_mem_of_ne_nil children nonempty
    obtain ⟨c, hc⟩ := List.exists_mem_of_ne_nil child.leaves (ih child mem)
    exact List.ne_nil_of_mem (mem_leaves_of_child mem hc)

end Filter.Node

namespace Config

variable {catalog : Catalog} {pattern : Option String} {operators : List ComparisonOperator}
  {config : Config} {root selector symbol : String} {arguments : List String} {n : Node}

/-- A selector resolves, and a path is the one that is made along its fields. -/
def Addresses (config : Config) (root selector : String) (p : Path) : Prop :=
  ∃ s, config.catalog.resolve root selector = .ok s ∧ config.registry.pathOf s = .ok p

section

variable (registry : config.registry = .withAdded [])
include registry

/-- A comparison reads one path, the one that its selector stands for. The handlers are the built-in
ones, since an added one may make any predicate. -/
theorem paths_compileComparison
    (h : config.compileComparison root selector symbol arguments = .ok e) :
    ∃ p, config.Addresses root selector p ∧ e.paths = [p] := by
  obtain ⟨op, s, p, handler, operand, -, hs, hp, found, -, made⟩ := compileComparison_eq_ok.mp h
  rw [registry, Registry.lookup_builtin] at found
  cases found
  exact ⟨p, ⟨s, hs, hp⟩, predicate_madeFor s.leaf.type e made⟩

/-- A compiled tree has the paths of its comparisons, from left to right. -/
theorem paths_compileNode (h : config.compileNode root n = .ok e) :
    List.Forall₂ (fun c p => config.Addresses root c.selector p) n.leaves e.paths := by
  induction n using Node.induct generalizing e with
  | comparison selector symbol arguments =>
    obtain ⟨p, addressed, paths⟩ :=
      paths_compileComparison registry (compileNode_comparison_eq_ok.mp h)
    rw [paths]
    exact .cons addressed .nil
  | logical junction children ih =>
    obtain ⟨first, es, compiled, rfl⟩ := compileNode_logical_eq_ok.mp h
    rw [Expression.paths_foldl_logical, Node.leaves, Node.leavesOf_eq_flatMap]
    have each := (List.forall₂_and_left _ _).mpr
      ⟨fun child hchild e => ih child hchild (e := e), compiled⟩
    exact List.rel_flatMap each fun child e ⟨paths, he⟩ => paths e he

end

/-- No compiled filter is a constant, for every comparison reads a path. -/
theorem isConstant_compileNode (registry : config.registry = .withAdded [])
    (h : config.compileNode root n = .ok e) : e.isConstant = false := by
  have nonempty := (compileNode_ok_iff.mp ⟨e, h⟩).1.leaves_ne_nil
  rw [Bool.eq_false_iff, ne_eq, Expression.isConstant_iff]
  intro none
  have paths := paths_compileNode registry h
  rw [none, List.forall₂_nil_right_iff] at paths
  exact nonempty paths

/-- With the built-in handlers, and whatever operators are added, a compiled filter has the path of
each of its comparisons once, in the order of the comparisons. It has as many paths as there are
comparisons, and is no constant. -/
theorem paths_of_compiled (built : build catalog pattern operators [] = .ok config)
    (root : String) :
    (∀ n e, config.compileNode root n = .ok e →
      List.Forall₂ (fun c p => config.Addresses root c.selector p) n.leaves e.paths ∧
      e.paths.length = n.comparisons ∧ e.isConstant = false) ∧
    ∀ filter e, config.compileFilter root filter = .ok e → e.isConstant = false := by
  obtain ⟨-, rfl⟩ := build_eq_ok.mp built
  refine ⟨fun n e h => ?_, fun filter e h => ?_⟩
  · have paths := paths_compileNode rfl h
    exact ⟨paths, by rw [← paths.length_eq, Node.length_leaves], isConstant_compileNode rfl h⟩
  · rw [compileFilter] at h
    split at h
    · exact isConstant_compileNode rfl h
    · cases h

/-- An operator that takes over two symbols, and stands for another comparison of a name than of a
size; the sizes fan out. -/
theorem paths_of_compiled_beyond :
    let beyond : ComparisonOperator := ⟨some "beyond", [">", "!="]⟩
    let n : Node := .logical .or [.logical .and [.comparison "name" "!=" ["V8"],
      .comparison "screws.size" "!=" ["3"]], .comparison "engine.name" "=noteqic=" ["v8"]]
    ∃ config e, build Sample.catalog none [beyond] [] = .ok config ∧
      config.compileNode "Car" n = .ok e ∧
      (∃ name size engine, e.paths = [name, size, engine] ∧
        config.Addresses "Car" "name" name ∧ config.Addresses "Car" "screws.size" size ∧
        config.Addresses "Car" "engine.name" engine) ∧ e.isConstant = false := by
  intro beyond n
  obtain ⟨config, made⟩ : ∃ config : Config, config =
    ⟨Sample.catalog, none, .merge .builtin [beyond], .withAdded [],
      Registry.defaultDepth⟩ := ⟨_, rfl⟩
  have built : build Sample.catalog none [beyond] [] = .ok config := build_eq_ok.mpr ⟨rfl, made⟩
  have leaves : n.leaves = [⟨"name", "!=", ["V8"]⟩, ⟨"screws.size", "!=", ["3"]⟩,
      ⟨"engine.name", "=noteqic=", ["v8"]⟩] := rfl
  obtain ⟨e, h⟩ : ∃ e, config.compileNode "Car" n = .ok e := by
    -- the table of symbols is too long to be evaluated, so its laws look them up
    have aliases : config.aliases = .merge .builtin [beyond] := by rw [made]
    have added : config.operator "!=" = .ok beyond := by
      have found : [beyond].reverse.find? ("!=" ∈ ·.symbols) = some beyond := rfl
      rw [operator_eq_ok, aliases, AliasTable.lookup?_merge, found, Option.some_or]
    have builtin : config.operator "=noteqic=" = .ok Builtin.notEqualsIgnoreCase.operator := by
      have free : [beyond].reverse.find? ("=noteqic=" ∈ ·.symbols) = none := rfl
      rw [operator_eq_ok, aliases, AliasTable.lookup?_merge, free, Option.none_or,
        AliasTable.lookup?_builtin (b := .notEqualsIgnoreCase) (by decide)]
    refine compileNode_ok_iff.mpr ⟨?_, ?_⟩
    · simp [n, Node.populated_logical_iff, Node.Populated.comparison]
    · rw [leaves]
      subst made
      simp only [List.forall_mem_cons]
      refine ⟨?_, ?_, ?_, nofun⟩
      · exact ⟨_, compileComparison_eq_ok.mpr ⟨_, _, _, _, _, added, rfl, rfl, rfl, rfl, rfl⟩⟩
      · exact ⟨_, compileComparison_eq_ok.mpr ⟨_, _, _, _, _, added, rfl, rfl, rfl, rfl, rfl⟩⟩
      · exact ⟨_, compileComparison_eq_ok.mpr ⟨_, _, _, _, _, builtin, rfl, rfl, rfl, rfl, rfl⟩⟩
  obtain ⟨paths, -, changing⟩ := (paths_of_compiled built "Car").1 n e h
  refine ⟨config, e, built, h, ?_, changing⟩
  rw [leaves] at paths
  generalize e.paths = all at paths
  cases paths with
  | cons first paths => cases paths with
    | cons second paths => cases paths with
      | cons third paths =>
        cases paths
        exact ⟨_, _, _, rfl, first, second, third⟩

end Config

end EntityQuery
