import EntityQuery.Proofs.Condition.Complement
import EntityQuery.Proofs.Condition.Selector
import EntityQuery.Proofs.Condition.Soundness
import EntityQuery.Proofs.Filter.RoundTrip
import EntityQuery.Proofs.Handler.Literal

/-!
# Filters for equal values

A value can be looked for by its text. The filter that compares a selector with this text is
written, scanned, parsed and compiled, and what comes out compares the path of the selector with
the value itself: nothing of the text gets out of the literal, and reading the literal is the
inverse of writing the value (`compileFilter_equality`). Of a record that conforms to the catalog
the filter then tells equal values from others, and with the opposite operator it tells the same the
other way round.
-/

namespace EntityQuery

variable {c : Catalog} {t : FieldType} {v w : Value} {literal : String} {r : Record} {p : Path}
  {x : Operand}

/-! ## Equal values -/

namespace Catalog.Writes

/-- A value that fits the type compares as equal to the written one only if it is that one. -/
theorem compare_eq_iff (h : c.Writes t v literal) (fits : w.Fits c t) (known : w.isNull = false) :
    w.compare v = some .eq ↔ w = v := by
  cases h with
  | text =>
    cases fits with
    | null => cases known
    | text s =>
      rw [Value.compare, Option.some.injEq, Value.compareText_eq_eq_iff, Value.text.injEq]
  | constant =>
    cases fits with
    | null => cases known
    | constant enum name =>
      rw [Value.compare, Option.some.injEq, Value.compareText_eq_eq_iff, Value.constant.injEq]
  | boolean b =>
    cases fits with
    | null => cases known
    | boolean b' => cases b <;> cases b' <;> simp [Value.compare, Value.compareBool]
  | integer n =>
    cases fits with
    | null => cases known
    | integer m width =>
      have same : m = n ↔ m.toInt = n.toInt := by
        obtain ⟨w, m, low, high⟩ := m
        obtain ⟨w', n, low', high'⟩ := n
        cases width
        simp
      rw [Value.integer.injEq, same]
      simp [Value.compare, Value.compareNumbers, Value.toInt?]

/-- What can be written as a literal can be compared. -/
theorem comparable (h : c.Writes t v literal) : t.isComparable := by
  cases h <;> rfl

/-- Compared with a value that a literal was written for, a value of the field is equal or not. It
is never a mismatch and, unless it is null, never unknown. -/
theorem apply_eq (h : c.Writes t v literal) (fits : w.Fits c t) (known : w.isNull = false) :
    Relation.eq.apply w v = .ok (.ofBool (w.compare v = some .eq)) := by
  obtain ⟨o, ho⟩ := Option.isSome_iff_exists.mp
    (fits.compare_isSome h.comparable h.fits known h.isNull)
  simp only [Relation.apply, known, h.isNull, Bool.or_self, Bool.false_eq_true, if_false,
    Relation.textTest?, ho, Relation.holdsOf, Option.some.injEq]

end Catalog.Writes

/-- A predicate is true of a record on which a path leads to a value, false of one on which it leads
to another value, and unknown if it leads to null or nowhere. It leads to one value at most. -/
structure Expression.FindsEqual (r : Record) (p : Path) (v : Value) (e : Expression) : Prop where
  single : (p.candidates r).length ≤ 1
  equal : p.candidates r = [v] → e.test r = .ok .true
  other : ∀ w, p.candidates r = [w] → w.isNull = false → w ≠ v → e.test r = .ok .false
  unknown : p.candidates r = [] ∨ p.candidates r = [.null] → e.test r = .ok .unknown

/-- A predicate that finds equal values never fails. -/
theorem Expression.FindsEqual.test_ok {e : Expression} (h : e.FindsEqual r p v) :
    ∃ truth, e.test r = .ok truth := by
  match candidates : p.candidates r, h.single with
  | [], _ => exact ⟨_, h.unknown (.inl candidates)⟩
  | [w], _ =>
    by_cases same : w = v
    · exact ⟨_, h.equal (same ▸ candidates)⟩
    · cases known : w.isNull with
      | false => exact ⟨_, h.other w candidates known same⟩
      | true =>
        cases w with
        | null => exact ⟨_, h.unknown (.inr candidates)⟩
        | _ => cases known

/-- The comparison of a path with a written value finds the value, where the path leads to values
of its type. -/
theorem Catalog.Writes.findsEqual (h : c.Writes t v literal) (single : p.isMultiValued = false)
    (fits : ∀ w ∈ p.candidates r, w.Fits c t) :
    (Expression.compare .eq (.path p) (.literal v)).FindsEqual r p v := by
  have applied : ∀ w, p.candidates r = [w] → w.isNull = false →
      (Expression.compare .eq (.path p) (.literal v)).test r =
        .ok (.ofBool (w.compare v = some .eq)) := by
    intro w candidates known
    rw [Expression.test_compare_of_single (Expression.values_path candidates)]
    exact h.apply_eq (fits w (candidates ▸ List.mem_singleton_self w)) known
  refine ⟨p.length_candidates single r, fun candidates => ?_, fun w candidates known other => ?_,
    ?_⟩
  · rw [applied v candidates h.isNull, decide_eq_true ((h.compare_eq_iff h.fits h.isNull).mpr rfl)]
    rfl
  · have fit := fits w (candidates ▸ List.mem_singleton_self w)
    rw [applied w candidates known, decide_eq_false (mt (h.compare_eq_iff fit known).mp other)]
    rfl
  · rintro (candidates | candidates)
    · exact Expression.test_compare_of_none (Expression.values_path candidates)
    · exact Expression.test_compare_of_single (Expression.values_path candidates)

/-! ## The rule for equality -/

/-- Equality has one rule. With a null literal it is the check for null. -/
theorem basePredicate_equals :
    basePredicate p x Builtin.equals.operator = equalOrNull .eq .isNull p x := by
  rw [basePredicate, applyRules_operator]
  rfl

/-- Every handler compares for equality in the same way. -/
theorem predicate_equals (t : FieldType) :
    (Handler.builtinFor t).predicate p x Builtin.equals.operator =
      equalOrNull .eq .isNull p x := by
  have beside : ∀ rules : List Rule, rules.find? (fun rule => rule.1 = .equals) = none →
      (applyRules rules Builtin.equals.operator <|> basePredicate p x Builtin.equals.operator) =
        equalOrNull .eq .isNull p x := by
    intro rules other
    rw [applyRules_operator, other, basePredicate_equals]
    rfl
  cases t with
  | string => exact beside _ rfl
  | numeric width => exact beside _ rfl
  | boolean => exact beside _ rfl
  | date | dateTime =>
    have other : findRule? (dateRules p x) Builtin.equals.operator = none := by
      rw [findRule?_operator]
      rfl
    have moment : datePredicate p x Builtin.equals.operator = equalOrNull .eq .isNull p x := by
      rw [datePredicate, other]
      exact beside _ rfl
    exact moment
  | _ => exact basePredicate_equals

/-! ## Filters -/

namespace Config

open EntityQuery.Filter (Node)

variable {enums : List EnumType} {entities : List EntityType} {pattern : Option String}
  {config : Config} {root selector : String} {s : ResolvedSelector}

/-- A written tree is read back and compiles as the tree, so what is said of trees holds of filters
that are texts. -/
theorem compileFilter_text {n : Node} (wf : n.WellFormed) :
    config.compileFilter root n.text = config.compileNode root n := by
  rw [compileFilter, Filter.parse_text wf]

/-- The comparison with the text of a value is the comparison with the value. -/
theorem compileComparison_equality (configured : build c pattern [] [] = .ok config)
    (hp : config.resolvePath root selector = .ok (p, s.leaf))
    (ht : s.leaf.type.candidate? = some t) (writes : c.Writes t v literal) :
    config.compileComparison root selector "==" [literal] =
      .ok (.compare .eq (.path p) (.literal v)) := by
  refine (compileComparison_builtin_eq_ok configured (b := .equals) (by decide)).mpr
    ⟨p, s.leaf, .single v, hp, ?_, ?_⟩
  · cases build_nil_eq_ok.mp configured
    exact writes.coerce ht pattern _
  · rw [predicate_equals, equalOrNull, Operand.single?, Option.map_some, writes.isNull]
    rfl

/-- A rendered filter for equality finds exactly the equal values. Let a selector resolve on a
built catalog, with an index on each of its collections, and lead to strings, constants, truth
values or integers. Whatever value of this type has a text, comparing the selector with the text
makes a filter that compiles, and so does the opposite comparison. Of every record that conforms to
the root the first is true if the path leads to the value, false if it leads to another value, and
unknown if it leads to null or nowhere; the other one is its negation. -/
theorem compileFilter_equality (built : Catalog.build enums entities = .ok c)
    (configured : build c pattern [] [] = .ok config) (resolved : c.resolve root selector = .ok s)
    (indexed : ∀ field ∈ s.fields, field.type.isCollection → field.index.isSome)
    (ht : s.leaf.type.candidate? = some t) (writes : c.Writes t v literal) :
    ∃ p e e', config.resolvePath root selector = .ok (p, s.leaf) ∧
      config.compileFilter root (Node.comparison selector "==" [literal]).text = .ok e ∧
      config.compileFilter root (Node.comparison selector "!=" [literal]).text = .ok e' ∧
      ∀ r : Record, r.Conforms c root →
        e.FindsEqual r p v ∧ e'.test r = (e.test r).map Truth.not := by
  have word := Catalog.isWord_of_resolve built resolved
  obtain ⟨p, hpath, hp, single⟩ := exists_resolvePath configured resolved indexed
  have singlePath : ∀ p' leaf, config.resolvePath root selector = .ok (p', leaf) →
      p'.isMultiValued = false := by
    intro p' leaf hp'
    cases hpath.symm.trans hp'
    exact single
  have he := compileComparison_equality configured hpath ht writes
  -- equality and inequality are counterparts, so that one of them compiles as soon as the other
  -- does
  obtain ⟨e', he'⟩ : ∃ e', config.compileComparison root selector "!=" [literal] = .ok e' :=
    (compileComparison_complement_iff configured singlePath .equality (by decide)
      (by decide)).mp ⟨_, he⟩
  have equals : (Node.comparison selector "==" [literal]).WellFormed :=
    .comparison word (.inr ⟨[], List.forall_mem_nil _, rfl⟩) (List.cons_ne_nil _ _)
  have differs : (Node.comparison selector "!=" [literal]).WellFormed :=
    .comparison word (.inl (by decide)) (List.cons_ne_nil _ _)
  refine ⟨p, _, e', hpath, (compileFilter_text equals).trans (compileNode_comparison_eq_ok.mpr he),
    (compileFilter_text differs).trans (compileNode_comparison_eq_ok.mpr he'),
    fun r conforms => ?_⟩
  have fits : ∀ w ∈ p.candidates r, w.Fits c t := by
    cases build_nil_eq_ok.mp configured
    exact candidates_fit rfl resolved hp ht conforms
  have found := writes.findsEqual single fits
  obtain ⟨truth, htruth⟩ := found.test_ok
  have opposite := compileComparison_opposite configured singlePath .equality (by decide)
    (by decide) he he' r
  exact ⟨found, by rw [htruth, opposite.eq_ok htruth]; rfl⟩

/-- The name of one of the screws of an engine, compared with a text that looks like syntax. -/
theorem compileFilter_equality_screw :
    ∃ e e', (standard Sample.catalog).compileFilter "Engine"
        (Node.comparison "screws[1].name" "==" ["a' or \"b\""]).text = .ok e ∧
      (standard Sample.catalog).compileFilter "Engine"
        (Node.comparison "screws[1].name" "!=" ["a' or \"b\""]).text = .ok e' ∧
      e.test partsUnknown = .ok .false ∧ e'.test partsUnknown = .ok .true := by
  let screws : ResolvedField :=
    ⟨"screws", some 1, .collection .list (.entity "Screw"), "Engine", none⟩
  let name : ResolvedField := ⟨"name", none, .string, "Screw", some 0⟩
  have resolved : Sample.catalog.resolve "Engine" "screws[1].name" =
      .ok ⟨"screws[1].name", "Engine", [screws, name], name⟩ := by decide +kernel
  have path : (standard Sample.catalog).resolvePath "Engine" "screws[1].name" =
      .ok (⟨"engine", [.property "screws", .index 1, .property "name"], .string⟩, name) := by
    decide +kernel
  obtain ⟨p, e, e', hp, he, he', finds⟩ := compileFilter_equality Sample.build_eq_catalog
    (build_eq_standard _) resolved (by decide) rfl (.text (s := "a' or \"b\"") (by decide))
  obtain ⟨found, negated⟩ := finds partsUnknown partsUnknown_conforms
  cases path.symm.trans hp
  have other : e.test partsUnknown = .ok .false :=
    found.other (.text "a") rfl rfl fun same => absurd (Value.text.inj same) (by decide)
  exact ⟨e, e', he, he', other, by rw [negated, other]; rfl⟩

end Config

end EntityQuery
