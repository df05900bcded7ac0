import EntityQuery.Proofs.Condition.Builtin
import EntityQuery.Proofs.Condition.Meaning
import EntityQuery.Proofs.Expression.Candidates

/-!
# Compiled filters do not fail

A predicate fails of a record when an operator meets values that it is not defined on. Of a record
that conforms to the catalog this cannot happen to a filter on comparable fields: what its paths
reach fits the type of the field, its literals have been read as values of that type, and each rule
of the built-in handlers applies an operator that is defined on all of them.

The rules are looked at table by table. `Rule.Sound` says that what a rule makes does not fail, and
a table of sound rules has sound predicates (`applyRules_sound`).
-/

namespace EntityQuery

variable {c : Catalog} {t : FieldType} {r : Record} {e : Expression} {p : Path} {x : Operand}
  {op : ComparisonOperator}

/-! ## Operators on values that fit -/

/-- A comparison by order is defined on the values of a comparable type. -/
theorem Relation.apply_ok {relation : Relation} (order : relation.textTest? = none)
    (comparable : t.isComparable) {a b : Value} (ha : a.Fits c t) (hb : b.Fits c t) :
    ∃ truth, relation.apply a b = .ok truth := by
  unfold Relation.apply
  split
  · exact ⟨_, rfl⟩
  · next known =>
    rw [Bool.or_eq_true, not_or, Bool.not_eq_true, Bool.not_eq_true] at known
    obtain ⟨o, ho⟩ := Option.isSome_iff_exists.mp (ha.compare_isSome comparable hb known.1 known.2)
    rw [order, ho]
    exact ⟨_, rfl⟩

/-- Every relation is defined on strings and nulls, the text tests among them; with a null the
outcome is unknown. -/
theorem Relation.apply_string_ok (relation : Relation) {a b : Value} (ha : a.Fits c .string)
    (hb : b.Fits c .string) : ∃ truth, relation.apply a b = .ok truth := by
  cases order : relation.textTest? with
  | none => exact Relation.apply_ok order rfl ha hb
  | some test =>
    unfold Relation.apply
    split
    · exact ⟨_, rfl⟩
    · next known =>
      obtain rfl | ⟨s, rfl⟩ := ha.string_cases
      · exact absurd rfl known
      obtain rfl | ⟨part, rfl⟩ := hb.string_cases
      · exact absurd rfl known
      rw [order]
      exact ⟨_, rfl⟩

/-- Lowering stays within the strings. -/
theorem Value.Fits.lower_ok {a : Value} (h : a.Fits c .string) :
    ∃ b, a.lower = .ok b ∧ b.Fits c .string := by
  obtain rfl | ⟨s, rfl⟩ := h.string_cases
  · exact ⟨_, rfl, .null _⟩
  · exact ⟨_, rfl, .text _⟩

/-- Strings can be checked for being empty. -/
theorem Value.Fits.emptiness_ok {a : Value} (h : a.Fits c .string) (check : Check) :
    ∃ truth, a.emptiness check = .ok truth := by
  obtain rfl | ⟨s, rfl⟩ := h.string_cases
  · exact ⟨_, rfl⟩
  · exact ⟨_, rfl⟩

/-- Booleans can be checked for being true. -/
theorem Value.Fits.truth_ok {a : Value} (h : a.Fits c .boolean) :
    ∃ truth, a.truth = .ok truth := by
  obtain rfl | ⟨b, rfl⟩ := h.boolean_cases
  · exact ⟨_, rfl⟩
  · exact ⟨_, rfl⟩

/-! ## Expressions that do not fail -/

namespace Expression

/-- A predicate does not fail of a record. -/
def Succeeds (r : Record) (e : Expression) : Prop := ∃ truth, e.test r = .ok truth

/-- The candidates of an expression are found, and fit a type. -/
def Yields (c : Catalog) (t : FieldType) (r : Record) (e : Expression) : Prop :=
  ∃ vs, e.values r = .ok vs ∧ ∀ v ∈ vs, v.Fits c t

theorem yields_path (h : ∀ v ∈ p.candidates r, v.Fits c t) : (path p).Yields c t r := ⟨_, rfl, h⟩

theorem yields_literal {v : Value} (h : v.Fits c t) : (literal v).Yields c t r :=
  ⟨_, rfl, fun _ hw => List.mem_singleton.mp hw ▸ h⟩

/-- A lowered string is a string, so what is defined on strings can be applied to it. -/
theorem Yields.lower (h : e.Yields c .string r) : (Expression.lower e).Yields c .string r := by
  obtain ⟨vs, hvs, fits⟩ := h
  obtain ⟨ws, hws⟩ := mapM_ok_of_forall fun v hv =>
    (fits v hv).lower_ok.imp fun _ lowered => lowered.1
  refine ⟨ws, ?_, fun w hw => ?_⟩
  · rw [values_lower, hvs]
    exact hws
  · obtain ⟨v, hv, hvw⟩ := mem_of_mem_mapM hws hw
    obtain ⟨w', hw', fit⟩ := (fits v hv).lower_ok
    cases hvw.symm.trans hw'
    exact fit

/-- The disjunction of tests that are all defined is. -/
theorem any_mapM_ok {α : Type} {test : α → Except OperandMismatch Truth} {xs : List α}
    (defined : ∀ a ∈ xs, ∃ truth, test a = .ok truth) :
    ∃ truth, (xs.mapM test >>= fun outcomes => .ok (Truth.any outcomes)) = .ok truth := by
  obtain ⟨outcomes, ho⟩ := mapM_ok_of_forall defined
  exact ⟨Truth.any outcomes, by rw [ho]; rfl⟩

/-- A comparison succeeds when the relation is defined on whatever its two sides can yield. It looks
at all pairs, so nothing less will do. -/
theorem succeeds_compare {relation : Relation} {left right : Expression}
    (hl : left.Yields c t r) (hr : right.Yields c t r)
    (defined : ∀ a b : Value, a.Fits c t → b.Fits c t →
      ∃ truth, relation.apply a b = .ok truth) :
    (compare relation left right).Succeeds r := by
  obtain ⟨ls, hls, lfits⟩ := hl
  obtain ⟨rs, hrs, rfits⟩ := hr
  rw [Succeeds, test_compare, hls, hrs]
  refine any_mapM_ok fun pair hpair => ?_
  obtain ⟨a, ha, hpair⟩ := List.mem_flatMap.mp hpair
  obtain ⟨b, hb, rfl⟩ := List.mem_map.mp hpair
  exact defined a b (lfits a ha) (rfits b hb)

/-- A check succeeds when it is defined on whatever its operand can yield. -/
theorem succeeds_check {k : Check} (h : e.Yields c t r)
    (defined : ∀ a : Value, a.Fits c t → ∃ truth, k.apply a = .ok truth) :
    (check k e).Succeeds r := by
  obtain ⟨vs, hvs, fits⟩ := h
  rw [Succeeds, test_check, hvs]
  exact any_mapM_ok fun v hv => defined v (fits v hv)

/-- Looking for a value in a list never fails: values that cannot be compared are just not equal. -/
theorem succeeds_member {items : List Value} {negated : Bool} (h : e.Yields c t r) :
    (member e items negated).Succeeds r := by
  obtain ⟨vs, hvs, -⟩ := h
  rw [Succeeds, test_member, hvs]
  exact any_mapM_ok fun v _ => ⟨v.memberOf items negated, rfl⟩

theorem Succeeds.not (h : e.Succeeds r) : (Expression.not e).Succeeds r := by
  obtain ⟨truth, ht⟩ := h
  rw [Succeeds, test_not, ht]
  exact ⟨_, rfl⟩

end Expression

/-! ## Rules -/

/-- What a rule makes does not fail. -/
def Rule.Sound (r : Record) (rule : Rule) : Prop := ∀ e, rule.2 = some e → e.Succeeds r

theorem mem_of_findRule? {rules : List Rule} {rule : Rule} (h : findRule? rules op = some rule) :
    rule ∈ rules :=
  List.mem_of_find?_eq_some h

/-- A table of sound rules makes predicates that succeed, whichever rule is taken. -/
theorem applyRules_sound {rules : List Rule} (sound : ∀ rule ∈ rules, rule.Sound r)
    (h : applyRules rules op = some e) : e.Succeeds r := by
  obtain ⟨rule, found, he⟩ := Option.bind_eq_some_iff.mp h
  exact sound rule (mem_of_findRule? found) e he

/-- A table that falls back on other predicates is sound when both are. -/
theorem applyRules_orElse_sound {rules : List Rule} {rest : Option Expression}
    (sound : ∀ rule ∈ rules, rule.Sound r) (fallback : ∀ e, rest = some e → e.Succeeds r)
    (h : (applyRules rules op <|> rest) = some e) : e.Succeeds r := by
  cases first : applyRules rules op with
  | none =>
    rw [first] at h
    exact fallback e h
  | some e' =>
    rw [first] at h
    cases h
    exact applyRules_sound sound first

section Rules

variable (hp : ∀ v ∈ p.candidates r, v.Fits c t) (hx : ∀ v ∈ x.toList, v.Fits c t)
include hp

theorem check_sound {k : Check} (b : Builtin)
    (defined : ∀ a : Value, a.Fits c t → ∃ truth, k.apply a = .ok truth) :
    Rule.Sound r (b, some (.check k (.path p))) := by
  intro e he
  cases he
  exact Expression.succeeds_check (Expression.yields_path hp) defined

theorem member_sound (b : Builtin) (items : List Value) (negated : Bool) :
    Rule.Sound r (b, some (.member (.path p) items negated)) := by
  intro e he
  cases he
  exact Expression.succeeds_member (Expression.yields_path hp)

include hx

theorem compareWith_sound {relation : Relation} (b : Builtin)
    (defined : ∀ a b : Value, a.Fits c t → b.Fits c t →
      ∃ truth, relation.apply a b = .ok truth) :
    Rule.Sound r (b, compareWith relation p x) := by
  intro e he
  obtain ⟨v, hv, rfl⟩ := Option.map_eq_some_iff.mp he
  exact Expression.succeeds_compare (Expression.yields_path hp)
    (Expression.yields_literal (hx v (Operand.mem_toList_of_single? hv))) defined

theorem equalOrNull_sound {relation : Relation} {k : Check} (b : Builtin)
    (compares : ∀ a b : Value, a.Fits c t → b.Fits c t →
      ∃ truth, relation.apply a b = .ok truth)
    (checks : ∀ a : Value, a.Fits c t → ∃ truth, k.apply a = .ok truth) :
    Rule.Sound r (b, equalOrNull relation k p x) := by
  intro e he
  obtain ⟨v, hv, rfl⟩ := Option.map_eq_some_iff.mp he
  split
  · exact Expression.succeeds_check (Expression.yields_path hp) checks
  · exact Expression.succeeds_compare (Expression.yields_path hp)
      (Expression.yields_literal (hx v (Operand.mem_toList_of_single? hv))) compares

/-- The rules that every type has are sound for comparable ones. -/
theorem basePredicate_sound (comparable : t.isComparable) (h : basePredicate p x op = some e) :
    e.Succeeds r := by
  refine applyRules_sound (fun rule hrule => ?_) h
  simp only [baseRules, List.mem_cons, List.not_mem_nil, or_false] at hrule
  rcases hrule with rfl | rfl | rfl | rfl | rfl | rfl
  · exact equalOrNull_sound hp hx _ (fun _ _ => Relation.apply_ok rfl comparable)
      fun _ _ => ⟨_, rfl⟩
  · exact equalOrNull_sound hp hx _ (fun _ _ => Relation.apply_ok rfl comparable)
      fun _ _ => ⟨_, rfl⟩
  · exact member_sound hp _ _ _
  · exact member_sound hp _ _ _
  · exact check_sound hp _ fun _ _ => ⟨_, rfl⟩
  · exact check_sound hp _ fun _ _ => ⟨_, rfl⟩

/-- The rules of numbers compare values of one comparable type, which are always comparable. -/
theorem numericPredicate_sound (comparable : t.isComparable)
    (h : numericPredicate p x op = some e) : e.Succeeds r := by
  refine applyRules_orElse_sound (fun rule hrule => ?_)
    (fun _ => basePredicate_sound hp hx comparable) h
  simp only [orderRules, List.mem_cons, List.not_mem_nil, or_false] at hrule
  rcases hrule with rfl | rfl | rfl | rfl <;>
    exact compareWith_sound hp hx _ fun _ _ => Relation.apply_ok rfl comparable

/-- The rules of dates add two relations to the same ones. -/
theorem datePredicate_sound (comparable : t.isComparable) (h : datePredicate p x op = some e) :
    e.Succeeds r := by
  unfold datePredicate at h
  split at h
  · next rule found =>
    have hrule := mem_of_findRule? found
    simp only [dateRules, List.mem_cons, List.not_mem_nil, or_false] at hrule
    rcases hrule with rfl | rfl
    · exact compareWith_sound hp hx _ (fun _ _ => Relation.apply_ok rfl comparable) e h
    · exact compareWith_sound hp hx _ (fun _ _ => Relation.apply_ok rfl comparable) e h
  · exact numericPredicate_sound hp hx comparable h

end Rules

/-- The checks of truth values are sound for truth values. -/
theorem booleanPredicate_sound (hp : ∀ v ∈ p.candidates r, v.Fits c .boolean)
    (hx : ∀ v ∈ x.toList, v.Fits c .boolean) (h : booleanPredicate p x op = some e) :
    e.Succeeds r := by
  refine applyRules_orElse_sound (fun rule hrule => ?_)
    (fun _ => basePredicate_sound hp hx rfl) h
  simp only [booleanRules, List.mem_cons, List.not_mem_nil, or_false] at hrule
  rcases hrule with rfl | rfl
  · exact check_sound hp _ fun a fit => fit.truth_ok
  · refine check_sound hp _ fun a fit => ?_
    obtain ⟨truth, ht⟩ := fit.truth_ok
    exact ⟨truth.not, map_eq_ok.mpr ⟨truth, ht, rfl⟩⟩

section Strings

variable (hp : ∀ v ∈ p.candidates r, v.Fits c .string) (hx : ∀ v ∈ x.toList, v.Fits c .string)
include hp hx

theorem compareString_sound (relation : Relation) (b : Builtin) :
    Rule.Sound r (b, compareWith relation p x) :=
  compareWith_sound hp hx b fun _ _ => relation.apply_string_ok

theorem compareLowered_sound (relation : Relation) (b : Builtin) :
    Rule.Sound r (b, compareLowered relation p x) := by
  intro e he
  obtain ⟨v, hv, rfl⟩ := Option.map_eq_some_iff.mp he
  exact Expression.succeeds_compare (Expression.yields_path hp).lower
    (Expression.yields_literal (hx v (Operand.mem_toList_of_single? hv))).lower
    fun _ _ => relation.apply_string_ok

/-- The rules of strings need strings on both sides, which the handler of strings sees to. -/
theorem stringPredicate_sound (h : stringPredicate p x op = some e) : e.Succeeds r := by
  refine applyRules_orElse_sound (fun rule hrule => ?_)
    (fun _ => basePredicate_sound hp hx rfl) h
  simp only [stringRules, List.mem_cons, List.not_mem_nil, or_false] at hrule
  rcases hrule with rfl | rfl | rfl | rfl | rfl | rfl | rfl | rfl | rfl | rfl | rfl | rfl | rfl
  · exact compareLowered_sound hp hx .eq _
  · exact compareLowered_sound hp hx .ne _
  · exact compareString_sound hp hx .like _
  · intro e he
    obtain ⟨like, hl, rfl⟩ := Option.map_eq_some_iff.mp he
    exact (compareString_sound hp hx .like .like like hl).not
  · exact compareLowered_sound hp hx .like _
  · exact compareString_sound hp hx .startsWith _
  · exact compareLowered_sound hp hx .startsWith _
  · exact compareString_sound hp hx .endsWith _
  · exact compareLowered_sound hp hx .endsWith _
  · exact compareString_sound hp hx .contains _
  · exact compareLowered_sound hp hx .contains _
  · exact check_sound hp _ fun a fit => fit.emptiness_ok .isEmpty
  · refine check_sound hp _ fun a fit => ?_
    obtain ⟨truth, ht⟩ := fit.emptiness_ok .isNotEmpty
    exact ⟨truth.not, map_eq_ok.mpr ⟨truth, ht, rfl⟩⟩

end Strings

/-- What a built-in handler makes of a field does not fail, when the candidates and the operand fit
the comparable type that is reached there. -/
theorem predicate_builtinFor_sound {u : FieldType} (ht : t.candidate? = some u)
    (comparable : u.isComparable) (hp : ∀ v ∈ p.candidates r, v.Fits c u)
    (hx : ∀ v ∈ x.toList, v.Fits c u) (h : (Handler.builtinFor t).predicate p x op = some e) :
    e.Succeeds r := by
  cases t with
  | collection kind element => exact basePredicate_sound hp hx comparable h
  | rawCollection kind => cases ht
  | string =>
    cases ht
    exact stringPredicate_sound hp hx h
  | boolean =>
    cases ht
    exact booleanPredicate_sound hp hx h
  | numeric width =>
    cases ht
    exact numericPredicate_sound hp hx comparable h
  | date | dateTime =>
    cases ht
    exact datePredicate_sound hp hx comparable h
  | character | enumeration =>
    cases ht
    exact basePredicate_sound hp hx comparable h
  | entity | custom =>
    cases ht
    cases comparable

/-! ## Filters -/

namespace Config

open EntityQuery.Filter (Node)

variable {config : Config} {root : String}

/-- The type that a comparison reaches has an order of its own. -/
def ComparesAt (config : Config) (root selector : String) : Prop :=
  ∀ s, config.catalog.resolve root selector = .ok s →
    ∃ t, s.leaf.type.candidate? = some t ∧ t.isComparable

/-- The path of a selector reaches values of the type of its leaf, whatever the record holds that
fits its declaration. Types are followed along the fields, and null is of any type. -/
theorem candidates_fit (builtin : config.registry = .withAdded []) {selector : String}
    {s : ResolvedSelector} (hs : config.catalog.resolve root selector = .ok s)
    (hp : config.registry.pathOf s = .ok p) (ht : s.leaf.type.candidate? = some t)
    (conforms : r.Conforms config.catalog root) :
    ∀ v ∈ p.candidates r, v.Fits config.catalog t := by
  obtain ⟨hroot, leads⟩ := Catalog.leads_of_resolve hs
  rw [Registry.pathOf, builtin] at hp
  have steps : p.steps = s.fields.flatMap ResolvedField.steps :=
    (Registry.steps_extendAll hp).trans (List.nil_append _)
  intro v hv
  unfold Path.candidates at hv
  split at hv
  · cases hv
  · rw [steps] at hv
    refine leads.followAll_fits ht (fun w hw => ?_) v hv
    rw [List.mem_singleton.mp hw]
    exact .record conforms

/-- A comparison on a comparable field does not fail of a record that conforms. -/
theorem compileComparison_sound (builtin : config.registry = .withAdded [])
    {selector symbol : String} {arguments : List String}
    (comparable : config.ComparesAt root selector)
    (h : config.compileComparison root selector symbol arguments = .ok e)
    (conforms : r.Conforms config.catalog root) : e.Succeeds r := by
  obtain ⟨op, s, p, handler, operand, -, hs, hp, hh, hoperand, made⟩ :=
    compileComparison_eq_ok.mp h
  obtain ⟨t, ht, tcomparable⟩ := comparable s hs
  have candidates := candidates_fit builtin hs hp ht conforms
  rw [builtin] at hh
  cases (Registry.lookup_builtin s.leaf.type).symm.trans hh
  have coerced := (coerce_context builtin s.leaf arguments).symm.trans hoperand
  exact predicate_builtinFor_sound ht tcomparable candidates
    (Registry.coerce_fits ht tcomparable coerced) made

/-- Type soundness of compiled filters. With the built-in handlers, whatever the catalog, the date
pattern and the added operators are, a filter all of whose comparisons are on comparable fields, or
on collections of comparable elements, is evaluated without failure on every record that conforms
to its root. -/
theorem compileNode_sound {catalog : Catalog} {pattern : Option String}
    {operators : List ComparisonOperator}
    (built : Config.build catalog pattern operators [] = .ok config) {n : Node}
    (comparable : ∀ leaf ∈ n.leaves, config.ComparesAt root leaf.selector)
    (h : config.compileNode root n = .ok e) (conforms : r.Conforms catalog root) :
    ∃ kept, e.keeps r = .ok kept := by
  have builtin : config.registry = .withAdded [] ∧ config.catalog = catalog := by
    unfold Config.build at built
    split at built
    · cases built
    · cases built
      exact ⟨rfl, rfl⟩
  obtain ⟨registry, rfl⟩ := builtin
  have leaves : ∀ c ∈ n.leaves, ∃ truth, config.comparisonTruth root r c = .ok truth := by
    intro leaf hleaf
    obtain ⟨e', he'⟩ := (compileNode_ok_iff.mp ⟨e, h⟩).2 leaf hleaf
    rw [comparisonTruth, he']
    exact compileComparison_sound registry (comparable leaf hleaf) he' conforms
  exact ⟨_, keeps_compileNode h r leaves⟩

/-- An engine of which only one screw is known. -/
def partsUnknown : Record :=
  Record.ofFields "Engine"
    [("screws", .list [.null, .record (Record.ofFields "Screw" [("name", .text "a")])])]

/-- What is not known of an engine fits its declaration. -/
theorem partsUnknown_conforms : partsUnknown.Conforms Sample.catalog "Engine" := by
  have screw : (Record.ofFields "Screw" [("name", .text "a")]).Conforms Sample.catalog "Screw" := by
    refine Record.conforms_of_allFields ?_
    rintro declared (_ | ⟨_, _ | ⟨_, _ | ⟨_, _ | ⟨_, _ | ⟨_, ⟨⟩⟩⟩⟩⟩⟩)
    · exact .null _
    · exact .text "a"
    · exact .null _
    · exact .null _
    · exact .null _
  refine Record.conforms_of_allFields ?_
  rintro declared (_ | ⟨_, _ | ⟨_, _ | ⟨_, _ | ⟨_, ⟨⟩⟩⟩⟩⟩)
  · exact .null _
  · exact .null _
  · exact .null _
  · refine .list .list ?_
    rintro v (_ | ⟨_, _ | ⟨_, ⟨⟩⟩⟩)
    · exact .null _
    · exact .record screw

/-- Engines with long screws, or with a screw of a certain name. -/
theorem compileNode_sound_engine :
    ∃ e, (standard Sample.catalog).compileNode "Engine" (.logical .or
        [.comparison "screws.size" "=gt=" ["3"], .comparison "screws.name" "=likeic=" ["A%"]]) =
          .ok e ∧
      ∃ kept, e.keeps partsUnknown = .ok kept := by
  have built := build_eq_standard Sample.catalog
  obtain ⟨e, he⟩ : ∃ e, (standard Sample.catalog).compileNode "Engine" (.logical .or
      [.comparison "screws.size" "=gt=" ["3"], .comparison "screws.name" "=likeic=" ["A%"]]) =
        .ok e :=
    ⟨_, compileNode_logical_eq_ok.mpr ⟨_, _,
      .cons (compileNode_comparison_eq_ok.mpr ((compileComparison_builtin_eq_ok built
        (b := .greater) (by decide)).mpr ⟨_, _, _, rfl, rfl, rfl⟩))
      (.cons (compileNode_comparison_eq_ok.mpr ((compileComparison_builtin_eq_ok built
        (b := .likeIgnoreCase) (by decide)).mpr ⟨_, _, _, rfl, rfl, rfl⟩)) .nil), rfl⟩⟩
  refine ⟨e, he, compileNode_sound built ?_ he partsUnknown_conforms⟩
  rintro leaf (_ | ⟨_, _ | ⟨_, ⟨⟩⟩⟩)
  · intro s hs
    cases hs
    exact ⟨_, rfl, rfl⟩
  · intro s hs
    cases hs
    exact ⟨_, rfl, rfl⟩

end Config

end EntityQuery
