import EntityQuery.Proofs.Condition.Equality
import EntityQuery.Proofs.Text.Lowercase

/-!
# Comparing without regard to case

The operators that ignore case compare a path and a literal after both have been lower-cased, each
as a whole. A match need not outlive this. A capital sigma of the literal may end a word there but
not where it is found, or the other way round, and the one character that becomes two is too long
for a `_`. Neither is a constant of an enumeration lower-cased, though it can be compared as a text.

Where the literal is found with its sigmas alike (`Relation.FindsAlike`) the match does outlive it:
such a record is found without regard to case as well, as long as the path leads to nothing but
texts and nulls (`Config.compileComparison_ignoringCase`). Equal texts are always alike, and so is
whatever matches a literal without a capital sigma, unless a `_` meets the one character. For a
prefix or a suffix nothing less will do.
-/

namespace EntityQuery

variable {c : Catalog} {p : Path} {r : Record} {relation : Relation} {exact ignoring : Builtin}
  {s t : String} {text part : List Char}

/-! ## What is found -/

/-- An operator on strings, the one that does the same in lower case, and the comparison of both. -/
inductive Builtin.IgnoresCase : Builtin → Builtin → Relation → Prop
  | equality : IgnoresCase .equals .equalsIgnoreCase .eq
  | likeness : IgnoresCase .like .likeIgnoreCase .like
  | start : IgnoresCase .startsWith .startsWithIgnoreCase .startsWith
  | ending : IgnoresCase .endsWith .endsWithIgnoreCase .endsWith
  | containment : IgnoresCase .contains .containsIgnoreCase .contains

namespace Relation

/-- What a comparison looks for in a text is there. -/
def Finds : Relation → List Char → List Char → Prop
  | .eq, text, part => text = part
  | .like, text, pattern => Text.Splits pattern text
  | .startsWith, text, part => part <+: text
  | .endsWith, text, part => part <:+ text
  | .contains, text, part => part <:+: text
  | _, _, _ => False

/-- What a comparison looks for in a text is there, with sigmas that have the same lower-case form
as in what is looked for, and without a `_` for a character that becomes two. -/
def FindsAlike : Relation → List Char → List Char → Prop
  | .eq, text, part => text = part
  | .like, text, pattern => Text.SplitsAlike [] pattern [] text
  | .startsWith, text, part => ∃ rest, text = part ++ rest ∧ Text.StandsAlone [] part rest
  | .endsWith, text, part => ∃ front, text = front ++ part ∧ Text.StandsAlone front.reverse part []
  | .contains, text, part =>
    ∃ front rest, text = front ++ (part ++ rest) ∧ Text.StandsAlone front.reverse part rest
  | _, _, _ => False

/-- A prefix or suffix that is found in lower case as well is found alike. -/
theorem findsAlike_of_lower (found : relation.Finds text part)
    (lowered : relation.Finds (Text.lowerAfter [] text) (Text.lowerAfter [] part))
    (fixed : relation = .eq ∨ relation = .startsWith ∨ relation = .endsWith) :
    relation.FindsAlike text part := by
  obtain rfl | rfl | rfl := fixed
  · exact found
  · obtain ⟨rest, rfl⟩ := found
    exact ⟨rest, rfl, Text.isPrefix_lowerAfter_iff.mp lowered⟩
  · obtain ⟨front, rfl⟩ := found
    exact ⟨front, rfl, Text.isSuffix_lowerAfter_iff.mp lowered⟩

end Relation

namespace Builtin.IgnoresCase

/-- Two texts compare as true if the one is found in the other. -/
theorem apply_text_iff (pair : exact.IgnoresCase ignoring relation) :
    relation.apply (.text s) (.text t) = .ok .true ↔ relation.Finds s.toList t.toList := by
  have known (b : Bool) :
      Except.ok (ε := OperandMismatch) (Truth.ofBool b) = .ok .true ↔ b = true := by
    cases b <;> decide
  cases pair with
  | equality =>
    change Except.ok (Truth.ofBool (decide (Value.compareText s t = .eq))) = .ok .true ↔ _
    rw [known, decide_eq_true_iff, Value.compareText_eq_eq_iff, Relation.Finds, String.toList_inj]
  | likeness => exact (known _).trans Text.like_iff_splits
  | start => exact (known _).trans List.isPrefixOf_iff_prefix
  | ending => exact (known _).trans List.isSuffixOf_iff_suffix
  | containment => exact (known _).trans Text.occursIn_iff

/-- What is found alike is found in lower case. One direction only: lower case can make texts alike
that were not. -/
theorem finds_lower (pair : exact.IgnoresCase ignoring relation)
    (alike : relation.FindsAlike text part) :
    relation.Finds (Text.lowerAfter [] text) (Text.lowerAfter [] part) := by
  cases pair with
  | equality => exact congrArg _ alike
  | likeness => exact Text.SplitsAlike.lower alike
  | start =>
    obtain ⟨rest, rfl, alone⟩ := alike
    exact Text.isPrefix_lowerAfter_iff.mpr alone
  | ending =>
    obtain ⟨front, rfl, alone⟩ := alike
    exact Text.isSuffix_lowerAfter_iff.mpr alone
  | containment =>
    obtain ⟨front, rest, rfl, alone⟩ := alike
    exact alone.isInfix

/-- What is found is found alike if it has no sigma, and no `_` for a character that becomes two. -/
theorem findsAlike (pair : exact.IgnoresCase ignoring relation) (found : relation.Finds text part)
    (plain : relation = .eq ∨ 'Σ' ∉ part ∧ (relation = .like → '_' ∉ part ∨ 'İ' ∉ text)) :
    relation.FindsAlike text part := by
  cases pair with
  | equality => exact found
  | likeness =>
    obtain ⟨none, single⟩ := plain.resolve_left nofun
    exact Text.Splits.alike found none (single rfl)
  | start =>
    obtain ⟨rest, rfl⟩ := found
    exact ⟨rest, rfl, Text.standsAlone_of_no_sigma (plain.resolve_left nofun).1⟩
  | ending =>
    obtain ⟨front, rfl⟩ := found
    exact ⟨front, rfl, Text.standsAlone_of_no_sigma (plain.resolve_left nofun).1⟩
  | containment =>
    obtain ⟨front, rest, rfl⟩ := found
    exact ⟨front, rest, List.append_assoc _ _ _,
      Text.standsAlone_of_no_sigma (plain.resolve_left nofun).1⟩

/-! ## Rules and predicates -/

/-- What the handler of strings makes of the two operators. -/
theorem predicate_string (pair : exact.IgnoresCase ignoring relation) (p : Path) (t : String) :
    (Handler.builtinFor .string).predicate p (.single (.text t)) exact.operator =
        some (.compare relation (.path p) (.literal (.text t))) ∧
      (Handler.builtinFor .string).predicate p (.single (.text t)) ignoring.operator =
        some (.compare relation (.lower (.path p)) (.lower (.literal (.text t)))) := by
  have rule (b : Builtin) :
      (Handler.builtinFor .string).predicate p (.single (.text t)) b.operator =
        ((((stringRules p (.single (.text t))).find? fun rule => rule.1 = b).bind (·.2)) <|>
          basePredicate p (.single (.text t)) b.operator) := by
    rw [← applyRules_operator]
    rfl
  cases pair with
  | equality => exact ⟨predicate_equals .string, rule _⟩
  | likeness | start | ending | containment => exact ⟨rule _, rule _⟩

end Builtin.IgnoresCase

namespace Expression

/-- A comparison of texts with a text is true if it is true for one of them. -/
theorem test_compare_text_iff {left right : Expression} {vs : List Value}
    (hl : left.values r = .ok vs) (hr : right.values r = .ok [.text t])
    (texts : ∀ v ∈ vs, v.Fits c .string) :
    (compare relation left right).test r = .ok .true ↔
      ∃ s, .text s ∈ vs ∧ relation.apply (.text s) (.text t) = .ok .true := by
  obtain ⟨outcomes, each⟩ := mapM_ok_of_forall fun v hv =>
    relation.apply_string_ok (texts v hv) (.text t)
  rw [test_compare_to hr, hl, ok_bind, each, ok_bind, Except.ok.injEq, Truth.any_eq_true]
  constructor
  · intro found
    obtain ⟨v, hv, holds⟩ := mem_of_mem_mapM each found
    obtain rfl | ⟨s, rfl⟩ := (texts v hv).string_cases
    · cases holds
    · exact ⟨s, hv, holds⟩
  · rintro ⟨s, hs, holds⟩
    obtain ⟨truth, mem, same⟩ := ok_of_mem_mapM each hs
    cases holds.symm.trans same
    exact mem

/-- A comparison in lower case is true if it is true for one of the texts in lower case. -/
theorem test_compare_lower_iff (texts : ∀ v ∈ p.candidates r, v.Fits c .string) :
    (compare relation (lower (path p)) (lower (literal (.text t)))).test r = .ok .true ↔
      ∃ s, .text s ∈ p.candidates r ∧
        relation.apply (.text (Text.lowercase s)) (.text (Text.lowercase t)) = .ok .true := by
  obtain ⟨ws, hws, fits⟩ := (yields_path texts).lower
  have each : (p.candidates r).mapM Value.lower = .ok ws := hws
  rw [test_compare_text_iff hws rfl fits]
  constructor
  · rintro ⟨x, hx, holds⟩
    obtain ⟨v, hv, lowered⟩ := mem_of_mem_mapM each hx
    obtain rfl | ⟨s, rfl⟩ := (texts v hv).string_cases
    · cases lowered
    · cases lowered
      exact ⟨s, hv, holds⟩
  · rintro ⟨s, hs, holds⟩
    obtain ⟨w, hw, lowered⟩ := ok_of_mem_mapM each hs
    cases lowered
    exact ⟨_, hw, holds⟩

end Expression

namespace Config

variable {pattern : Option String} {config : Config} {root selector left right literal : String}
  {leaf : ResolvedField}

/-- Ignoring case finds what is found otherwise, if it stands there as it does in the literal. With
the built-in operators and handlers, let a selector lead to strings, and let the literal not be
empty. Then both comparisons of a pair compile. Of every record on which the path leads to texts and
nulls alone, and of which the exact comparison is true, the one that ignores case is true as well if
texts are compared for equality, if the literal has no capital sigma and, as a pattern, no `_` where
a text has the character that becomes two, or if the literal is found alike in one of the texts.
For equality, prefixes and suffixes of a single text the last is necessary, too. -/
theorem compileComparison_ignoringCase (built : build c pattern [] [] = .ok config)
    (hp : config.resolvePath root selector = .ok (p, leaf)) (ht : leaf.type = .string)
    (nonempty : literal ≠ "") (pair : exact.IgnoresCase ignoring relation)
    (ha : left ∈ exact.symbols) (hb : right ∈ ignoring.symbols) :
    ∃ e e', config.compileComparison root selector left [literal] = .ok e ∧
      config.compileComparison root selector right [literal] = .ok e' ∧
      ∀ r, (∀ v ∈ p.candidates r, v.Fits c .string) → e.test r = .ok .true →
        (relation = .eq ∨ 'Σ' ∉ literal.toList ∧ (relation = .like →
            '_' ∉ literal.toList ∨ ∀ s, .text s ∈ p.candidates r → 'İ' ∉ s.toList) →
          e'.test r = .ok .true) ∧
        ((∃ s, .text s ∈ p.candidates r ∧ relation.FindsAlike s.toList literal.toList) →
          e'.test r = .ok .true) ∧
        (relation = .eq ∨ relation = .startsWith ∨ relation = .endsWith →
          ∀ s, p.candidates r = [.text s] → e'.test r = .ok .true →
            relation.FindsAlike s.toList literal.toList) := by
  have hoperand : config.registry.coerce c pattern config.depth leaf [literal] =
      .ok (.single (.text literal)) := by
    cases build_nil_eq_ok.mp built
    exact (Catalog.Writes.text nonempty).coerce (by rw [ht]; rfl) pattern _
  obtain ⟨made, made'⟩ := pair.predicate_string p literal
  rw [← ht] at made made'
  refine ⟨_, _, (compileComparison_builtin_eq_ok built ha).mpr ⟨p, leaf, _, hp, hoperand, made⟩,
    (compileComparison_builtin_eq_ok built hb).mpr ⟨p, leaf, _, hp, hoperand, made'⟩,
    fun r texts holds => ?_⟩
  -- both predicates look at the same texts, one of them lowered, so texts are all there is to
  -- compare
  have lowered (s : String) :
      relation.apply (.text (Text.lowercase s)) (.text (Text.lowercase literal)) = .ok .true ↔
        relation.Finds (Text.lowerAfter [] s.toList) (Text.lowerAfter [] literal.toList) := by
    rw [pair.apply_text_iff, Text.lowercase, Text.lowercase, String.toList_ofList,
      String.toList_ofList]
  rw [Expression.test_compare_text_iff rfl rfl texts] at holds
  simp only [pair.apply_text_iff] at holds
  simp only [Expression.test_compare_lower_iff texts, lowered]
  refine ⟨fun plain => ?_, ?_, fun fixed s single => ?_⟩
  · obtain ⟨s, hs, found⟩ := holds
    refine ⟨s, hs, pair.finds_lower (pair.findsAlike found (plain.imp_right ?_))⟩
    exact And.imp_right fun single like => (single like).imp_right fun none => none s hs
  · rintro ⟨s, hs, alike⟩
    exact ⟨s, hs, pair.finds_lower alike⟩
  · rw [single]
    rintro ⟨s', hs', found'⟩
    obtain ⟨s'', hs'', found⟩ := holds
    rw [single, List.mem_singleton, Value.text.injEq] at hs''
    rw [List.mem_singleton, Value.text.injEq] at hs'
    subst hs' hs''
    exact Relation.findsAlike_of_lower found found' fixed

/-! ## The names of cars -/

/-- The names of cars, which the examples are about. -/
theorem resolvePath_name : (standard Sample.catalog).resolvePath "Car" "name" =
    .ok (⟨"car", [.property "name"], .string⟩, ⟨"name", none, .string, "Car", none⟩) := by
  decide +kernel

/-- What a comparison of such a name compiles to, once its rule is known. -/
theorem compileComparison_name {b : Builtin} {symbol : String} {e : Expression}
    (mem : symbol ∈ b.symbols) (nonempty : literal ≠ "")
    (made : (Handler.builtinFor .string).predicate ⟨"car", [.property "name"], .string⟩
      (.single (.text literal)) b.operator = some e) :
    (standard Sample.catalog).compileComparison "Car" "name" symbol [literal] = .ok e := by
  have coerced : (Registry.withAdded []).coerce Sample.catalog none Registry.defaultDepth
      ⟨"name", none, .string, "Car", none⟩ [literal] = .ok (.single (.text literal)) :=
    (Catalog.Writes.text nonempty).coerce rfl none _
  exact (compileComparison_builtin_eq_ok (build_eq_standard Sample.catalog) mem).mpr
    ⟨_, _, _, resolvePath_name, coerced, made⟩

/-- A sigma at the start of a name is the one of the literal. -/
theorem compileComparison_ignoringCase_sigma :
    let car := Record.ofFields "Car" [("name", .text "ΣΑΒ")]
    ∃ e e', (standard Sample.catalog).compileComparison "Car" "name" "=startsw=" ["ΣΑ"] = .ok e ∧
      (standard Sample.catalog).compileComparison "Car" "name" "=startswic=" ["ΣΑ"] = .ok e' ∧
      e.test car = .ok .true ∧ e'.test car = .ok .true := by
  intro car
  have nonempty : "ΣΑ" ≠ "" := by decide
  have starts : "=startsw=" ∈ Builtin.startsWith.symbols := by decide
  obtain ⟨e, e', he, he', finds⟩ := compileComparison_ignoringCase
    (build_eq_standard Sample.catalog) resolvePath_name rfl nonempty .start starts
    (show "=startswic=" ∈ _ by decide)
  have texts : ∀ v ∈ [Value.text "ΣΑΒ"], v.Fits Sample.catalog .string :=
    List.forall_mem_singleton.mpr (.text _)
  have found : e.test car = .ok .true := by
    cases he.symm.trans (compileComparison_name starts nonempty rfl)
    decide +kernel
  have alone : Text.StandsAlone [] ['Σ', 'Α'] ['Β'] := Text.standsAlone_iff.mpr (by decide +kernel)
  exact ⟨e, e', he, he', found,
    (finds car texts found).2.1 ⟨"ΣΑΒ", List.mem_singleton_self _, ['Β'], rfl, alone⟩⟩

/-- A character that becomes two is too long for a `_`, a sigma within a word is not the one at its
end, and a constant is not lower-cased. -/
theorem not_found_ignoringCase :
    let tested (symbol literal : String) (name : Value) :=
      ((standard Sample.catalog).compileComparison "Car" "name" symbol [literal]).toOption.map
        fun e => e.test (Record.ofFields "Car" [("name", name)])
    tested "=like=" "_" (.text "İ") = some (.ok .true) ∧
      tested "=likeic=" "_" (.text "İ") = some (.ok .false) ∧
      tested "=startsw=" "ΑΣ" (.text "ΑΣΒ") = some (.ok .true) ∧
      tested "=startswic=" "ΑΣ" (.text "ΑΣΒ") = some (.ok .false) ∧
      tested "=con=" "V" (.constant "V8") = some (.ok .true) ∧
      tested "=conic=" "V" (.constant "V8") = some (.error ⟨"LOWER", "enum", "none"⟩) := by
  intro tested
  have compiled {b : Builtin} {symbol literal : String} {e : Expression}
      (mem : symbol ∈ b.symbols) (nonempty : literal ≠ "")
      (made : (Handler.builtinFor .string).predicate ⟨"car", [.property "name"], .string⟩
        (.single (.text literal)) b.operator = some e) (name : Value) :
      tested symbol literal name = some (e.test (Record.ofFields "Car" [("name", name)])) := by
    dsimp only [tested]
    rw [compileComparison_name mem nonempty made]
    rfl
  refine ⟨?_, ?_, ?_, ?_, ?_, ?_⟩
  · exact (compiled (b := .like) (by decide) (by decide) rfl _).trans (by decide +kernel)
  · exact (compiled (b := .likeIgnoreCase) (by decide) (by decide) rfl _).trans (by decide +kernel)
  · exact (compiled (b := .startsWith) (by decide) (by decide) rfl _).trans (by decide +kernel)
  · exact (compiled (b := .startsWithIgnoreCase) (by decide) (by decide) rfl _).trans
      (by decide +kernel)
  · exact (compiled (b := .contains) (by decide) (by decide) rfl _).trans (by decide +kernel)
  · exact (compiled (b := .containsIgnoreCase) (by decide) (by decide) rfl _).trans
      (by decide +kernel)

end Config

end EntityQuery
