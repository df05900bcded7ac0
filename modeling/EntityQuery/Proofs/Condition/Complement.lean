import EntityQuery.Proofs.Condition.Builtin
import EntityQuery.Proofs.Expression.Opposite
import EntityQuery.Sample

/-!
# Complementary operators

Nine pairs of built-in operators are each other's negation. Their rules are made in different
ways: by another comparison, by a negation, by another check, by a negated list. Whatever the
handler, it has a rule for both operators of a pair or for neither, and the predicates of the two
are opposite of every record, as long as the path has one candidate at most
(`predicate_counterparts`). A filter and its complement therefore split the records of which they
are known (`compileNode_complement`).

Where a path goes through all elements of a collection the pair is no complement: both of its
operators look for one element.
-/

namespace EntityQuery

variable {p : Path} {x : Operand}

/-- An operator and the one that stands for its negation. -/
inductive Builtin.Complements : Builtin → Builtin → Prop
  | equality : Complements .equals .notEquals
  | equalityIgnoringCase : Complements .equalsIgnoreCase .notEqualsIgnoreCase
  | likeness : Complements .like .notLike
  | membership : Complements .isIn .isNotIn
  | nullness : Complements .isNull .isNotNull
  | emptiness : Complements .isEmpty .isNotEmpty
  | truth : Complements .isTrue .isFalse
  | above : Complements .greater .lessThanOrEquals
  | below : Complements .lessThan .greaterOrEquals

/-- What two rules make: nothing, or predicates that are opposite of every record. -/
inductive Counterparts : Option Expression → Option Expression → Prop
  | none : Counterparts none none
  | some {e e' : Expression} (h : ∀ r, Opposite (e.test r) (e'.test r)) :
    Counterparts (some e) (some e')

namespace Counterparts

/-- What a value makes in two ways, if there is one. -/
theorem map {o : Option Value} {f g : Value → Expression}
    (h : ∀ v r, Opposite ((f v).test r) ((g v).test r)) : Counterparts (o.map f) (o.map g) := by
  cases o with
  | none => exact .none
  | some v => exact .some (h v)

/-- Of two counterparts both are made or neither is. -/
theorem exists_iff {made made' : Option Expression} (h : Counterparts made made') :
    (∃ e, made = .some e) ↔ ∃ e, made' = .some e := by
  cases h with
  | none => exact Iff.rfl
  | some h => exact iff_of_true ⟨_, rfl⟩ ⟨_, rfl⟩

/-- Of any record two counterparts say the opposite, failures and the unknown left alone. -/
theorem opposite {e e' : Expression} (h : Counterparts (.some e) (.some e')) (r : Record) :
    Opposite (e.test r) (e'.test r) := by
  cases h with
  | some h => exact h r

/-- A predicate and its negation are counterparts. The rules for NOT come down to this. -/
theorem map_not (made : Option Expression) : Counterparts made (made.map .not) := by
  cases made with
  | none => exact .none
  | some e => exact .some fun _ => e.not_opposite

/-- Rules that are tried one after the other are counterparts when each pair of them is. -/
theorem orElse {made made' rest rest' : Option Expression} (h : Counterparts made made')
    (fallback : Counterparts rest rest') : Counterparts (made <|> rest) (made' <|> rest') := by
  cases h with
  | none => exact fallback
  | some h => exact .some h

end Counterparts

/-- The predicate of a built-in operator is what the first rule made for it gives. -/
theorem applyRules_operator (rules : List Rule) (b : Builtin) :
    applyRules rules b.operator = (rules.find? fun rule => rule.1 = b).bind (·.2) := by
  rw [applyRules, findRule?_operator]

/-! ## The tables -/

section Rules

variable {a b : Builtin} (pair : a.Complements b) (single : p.isMultiValued = false)
include single

theorem compareWith_counterparts {relation relation' : Relation}
    (h : relation.Opposes relation') :
    Counterparts (compareWith relation p x) (compareWith relation' p x) :=
  .map fun v _ => Expression.compare_opposite h (Expression.singleValued_path single)
    (Expression.singleValued_literal v)

theorem compareLowered_counterparts {relation relation' : Relation}
    (h : relation.Opposes relation') :
    Counterparts (compareLowered relation p x) (compareLowered relation' p x) :=
  .map fun v _ => Expression.compare_opposite h (Expression.singleValued_path single).lower
    (Expression.singleValued_literal v).lower

theorem check_counterparts {k k' : Check} (h : k.Opposes k') :
    Counterparts (some (.check k (.path p))) (some (.check k' (.path p))) :=
  .some fun _ => Expression.check_opposite h (Expression.singleValued_path single)

theorem member_counterparts (items : List Value) :
    Counterparts (some (.member (.path p) items false)) (some (.member (.path p) items true)) :=
  .some fun _ => Expression.member_opposite items (Expression.singleValued_path single)

/-- Equality with null is a check, and so is its opposite. -/
theorem equalOrNull_counterparts :
    Counterparts (equalOrNull .eq .isNull p x) (equalOrNull .ne .isNotNull p x) := by
  refine .map fun v r => ?_
  split
  · exact Expression.check_opposite .null (Expression.singleValued_path single)
  · exact Expression.compare_opposite .equality (Expression.singleValued_path single)
      (Expression.singleValued_literal v)

include pair

/-- The base rules give counterparts to complementary operators, rule by rule. -/
theorem basePredicate_counterparts :
    Counterparts (basePredicate p x a.operator) (basePredicate p x b.operator) := by
  rw [basePredicate, basePredicate, applyRules_operator, applyRules_operator]
  cases pair with
  | equality => exact equalOrNull_counterparts single
  | membership => exact member_counterparts single x.toList
  | nullness => exact check_counterparts single .null
  | _ => exact .none

/-- So do the rules of strings, those that ignore case and the patterns among them. -/
theorem stringPredicate_counterparts :
    Counterparts (stringPredicate p x a.operator) (stringPredicate p x b.operator) := by
  refine .orElse ?_ (basePredicate_counterparts pair single)
  rw [applyRules_operator, applyRules_operator]
  cases pair with
  | equalityIgnoringCase => exact compareLowered_counterparts single .equality
  | likeness => exact .map_not (compareWith .like p x)
  | emptiness => exact check_counterparts single .empty
  | _ => exact .none

/-- So do the rules of numbers. Their order relations turn around rather than being negated. -/
theorem numericPredicate_counterparts :
    Counterparts (numericPredicate p x a.operator) (numericPredicate p x b.operator) := by
  refine .orElse ?_ (basePredicate_counterparts pair single)
  rw [applyRules_operator, applyRules_operator]
  cases pair with
  | above => exact compareWith_counterparts single .above
  | below => exact compareWith_counterparts single .below
  | _ => exact .none

/-- So do the rules of booleans, whose two checks are each other's opposite. -/
theorem booleanPredicate_counterparts :
    Counterparts (booleanPredicate p x a.operator) (booleanPredicate p x b.operator) := by
  refine .orElse ?_ (basePredicate_counterparts pair single)
  rw [applyRules_operator, applyRules_operator]
  cases pair with
  | truth => exact check_counterparts single .truth
  | _ => exact .none

/-- No operator of a pair is one that moments alone have. -/
theorem datePredicate_counterparts :
    Counterparts (datePredicate p x a.operator) (datePredicate p x b.operator) := by
  have other : findRule? (dateRules p x) a.operator = none ∧
      findRule? (dateRules p x) b.operator = none := by
    rw [findRule?_operator, findRule?_operator]
    cases pair <;> exact ⟨rfl, rfl⟩
  rw [datePredicate, datePredicate, other.1, other.2]
  exact numericPredicate_counterparts pair single

/-- A built-in handler has opposite predicates for complementary operators, or none for either. -/
theorem predicate_counterparts (t : FieldType) :
    Counterparts ((Handler.builtinFor t).predicate p x a.operator)
      ((Handler.builtinFor t).predicate p x b.operator) := by
  cases t with
  | string => exact stringPredicate_counterparts pair single
  | numeric width => exact numericPredicate_counterparts pair single
  | boolean => exact booleanPredicate_counterparts pair single
  | date | dateTime => exact datePredicate_counterparts pair single
  | _ => exact basePredicate_counterparts pair single

end Rules

/-! ## Filters -/

namespace Config

open EntityQuery.Filter (Node)

variable {catalog : Catalog} {pattern : Option String} {config : Config}
  {root selector left right : String} {arguments : List String} {a b : Builtin}

/-- Complementary comparisons with one path compile together. -/
theorem compileComparison_complement_iff (built : build catalog pattern [] [] = .ok config)
    (single : ∀ p leaf, config.resolvePath root selector = .ok (p, leaf) →
      p.isMultiValued = false)
    (pair : a.Complements b) (ha : left ∈ a.symbols) (hb : right ∈ b.symbols) :
    (∃ e, config.compileComparison root selector left arguments = .ok e) ↔
      ∃ e, config.compileComparison root selector right arguments = .ok e := by
  -- Which predicate is made comes last, so that the path, the leaf and the operand are shared.
  simp only [compileComparison_builtin_eq_ok built ha, compileComparison_builtin_eq_ok built hb,
    @exists_comm Expression, exists_and_left]
  refine exists_congr fun p => exists_congr fun leaf => and_congr_right fun hp =>
    exists_congr fun operand => and_congr_right fun _ => ?_
  exact (predicate_counterparts pair (single p leaf hp) leaf.type).exists_iff

/-- Complementary comparisons with one path are opposite of every record. The path must not fan out:
of several candidates one can satisfy a comparison and another its complement. -/
theorem compileComparison_opposite (built : build catalog pattern [] [] = .ok config)
    (single : ∀ p leaf, config.resolvePath root selector = .ok (p, leaf) →
      p.isMultiValued = false)
    (pair : a.Complements b) (ha : left ∈ a.symbols) (hb : right ∈ b.symbols) {e e' : Expression}
    (he : config.compileComparison root selector left arguments = .ok e)
    (he' : config.compileComparison root selector right arguments = .ok e') (r : Record) :
    Opposite (e.test r) (e'.test r) := by
  obtain ⟨p, leaf, operand, hp, hoperand, made⟩ := (compileComparison_builtin_eq_ok built ha).mp he
  obtain ⟨p', leaf', operand', hp', hoperand', made'⟩ :=
    (compileComparison_builtin_eq_ok built hb).mp he'
  cases hp.symm.trans hp'
  cases hoperand.symm.trans hoperand'
  exact (made ▸ made' ▸ predicate_counterparts pair (single p leaf hp) leaf.type :
    Counterparts (some e) (some e')).opposite r

/-- Of a record of which neither predicate fails, one of two opposite predicates keeps it and the
other does not, unless both are unknown. -/
theorem keeps_of_opposite {e e' : Expression} {r : Record} {t : Truth}
    (opposite : Opposite (e.test r) (e'.test r)) (h : e.test r = .ok t) :
    (∃ kept, e.keeps r = .ok kept ∧ e'.keeps r = .ok !kept) ∨
      t = .unknown ∧ e'.test r = .ok .unknown := by
  have h' := opposite.eq_ok h
  rw [Expression.keeps, Expression.keeps, h, h']
  cases t with
  | true => exact .inl ⟨true, rfl, rfl⟩
  | false => exact .inl ⟨false, rfl, rfl⟩
  | unknown => exact .inr ⟨rfl, rfl⟩

/-- Complementary operators split the records. With the built-in operators and handlers, whatever
the root, the literals and the spelling of the two operators are, and whatever the selector, as
long as its path is not multi-valued: one comparison compiles when the other does. The predicates
then fail on the same records, conforming or not, and on any other record each is the negation of
the other. So such a record is kept by exactly one of them, or unknown to both. -/
theorem compileNode_complement (built : build catalog pattern [] [] = .ok config)
    (single : ∀ p leaf, config.resolvePath root selector = .ok (p, leaf) →
      p.isMultiValued = false)
    (pair : a.Complements b) (ha : left ∈ a.symbols) (hb : right ∈ b.symbols) :
    ((∃ e, config.compileNode root (.comparison selector left arguments) = .ok e) ↔
      ∃ e, config.compileNode root (.comparison selector right arguments) = .ok e) ∧
    ∀ e e', config.compileNode root (.comparison selector left arguments) = .ok e →
      config.compileNode root (.comparison selector right arguments) = .ok e' → ∀ r,
        ((∃ m, e.test r = .error m) ↔ ∃ m, e'.test r = .error m) ∧
        ∀ t, e.test r = .ok t → e'.test r = .ok t.not ∧
          ((∃ kept, e.keeps r = .ok kept ∧ e'.keeps r = .ok !kept) ∨
            t = .unknown ∧ e'.test r = .ok .unknown) := by
  simp only [compileNode_comparison_eq_ok]
  refine ⟨compileComparison_complement_iff built single pair ha hb, fun e e' he he' r => ?_⟩
  have opposite := compileComparison_opposite built single pair ha hb he he' r
  exact ⟨opposite.error_iff, fun t h => ⟨opposite.eq_ok h, keeps_of_opposite opposite h⟩⟩

/-- A car by the name of its engine. -/
theorem compileNode_complement_engine :
    let car := Record.ofFields "Car"
      [("engine", .record (Record.ofFields "Engine" [("name", .text "V8")]))]
    ∃ e e', (standard Sample.catalog).compileNode "Car"
        (.comparison "engine.name" "=like=" ["V%"]) = .ok e ∧
      (standard Sample.catalog).compileNode "Car"
        (.comparison "engine.name" "=notLike=" ["V%"]) = .ok e' ∧
      e.test car = .ok .true ∧ e'.test car = .ok .false := by
  intro car
  have single : ∀ p leaf, (standard Sample.catalog).resolvePath "Car" "engine.name" =
      .ok (p, leaf) → p.isMultiValued = false := by
    rintro p leaf ⟨⟩
    rfl
  have complement := @compileNode_complement _ _ _ "Car" "engine.name" "=like=" "=notLike=" ["V%"]
    _ _ (build_eq_standard Sample.catalog) single .likeness (by decide) (by decide)
  obtain ⟨e, he, holds⟩ : ∃ e, (standard Sample.catalog).compileNode "Car"
      (.comparison "engine.name" "=like=" ["V%"]) = .ok e ∧
        e.test car = .ok .true :=
    ⟨_, compileNode_comparison_eq_ok.mpr ((compileComparison_builtin_eq_ok
      (build_eq_standard _) (b := .like) (by decide)).mpr ⟨_, _, _, rfl, rfl, rfl⟩), rfl⟩
  obtain ⟨e', he'⟩ := complement.1.mp ⟨e, he⟩
  exact ⟨e, e', he, he', holds, ((complement.2 e e' he he' car).2 _ holds).1⟩

end Config

end EntityQuery
