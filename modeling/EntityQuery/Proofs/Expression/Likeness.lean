import EntityQuery.Proofs.Expression.Candidates
import EntityQuery.Proofs.Text.Matching
import EntityQuery.Sample

/-!
# Patterns for the comparisons of texts

A text without wildcards is matched by itself alone. With a `%` behind it, before it or on both
sides, it is the pattern of the texts that start with it, end with it or contain it. So every
comparison of texts with such a part is a match with a pattern (`Relation.AsPattern`), and has the
same outcome, whatever the candidates are that it is made for (`Relation.like_agrees`).

The comparisons differ in what they can be made of. Equality is no test of texts and tells a text
from a constant by failing, while a pattern matches either. So a match can have an outcome where
equality has none, but not the other way round.
-/

namespace EntityQuery

variable {part pattern text : List Char} {relation : Relation} {v w w' : Value} {truth : Truth}

/-! ## Pieces of patterns with runs -/

namespace Text

/-- No character of a text is a wildcard. -/
def NoWildcard (part : List Char) : Prop := '%' ∉ part ∧ '_' ∉ part

instance (part : List Char) : Decidable (NoWildcard part) :=
  inferInstanceAs (Decidable ('%' ∉ part ∧ '_' ∉ part))

/-- A text has no wildcard when its first character is none and the rest has none. -/
theorem noWildcard_cons_iff {p : Char} {ps : List Char} :
    NoWildcard (p :: ps) ↔ (p ≠ '%' ∧ p ≠ '_') ∧ NoWildcard ps := by
  simp only [NoWildcard, List.mem_cons, not_or, ne_eq, eq_comm (b := p)]
  tauto

/-- The pieces for two patterns, one behind the other. -/
theorem splits_append_iff {ps qs : List Char} :
    Splits (ps ++ qs) text ↔
      ∃ front, Splits ps front ∧ ∃ rest, Splits qs rest ∧ front ++ rest = text := by
  simp only [← mem_prod_taken_iff, List.map_append, List.prod_append, Language.mem_mul]

/-- A run of any characters is a piece of its own for the wildcard `%`. -/
theorem splits_run (cs : List Char) : Splits ['%'] cs :=
  splits_cons_iff.mpr ⟨cs, .run cs, [], splits_nil_iff.mpr rfl, List.append_nil cs⟩

/-- A character that is no wildcard takes itself. -/
theorem splits_noWildcard_iff (plain : NoWildcard part) : Splits part text ↔ text = part := by
  induction part generalizing text with
  | nil => exact splits_nil_iff
  | cons p ps ih =>
    obtain ⟨⟨run, one⟩, plain⟩ := noWildcard_cons_iff.mp plain
    rw [splits_cons_iff]
    simp only [takes_iff, if_neg run, if_neg one, ih plain, exists_eq_left, List.singleton_append]
    exact eq_comm

/-- Without wildcards a pattern matches itself only. -/
theorem like_whole_iff (plain : NoWildcard part) : like text part ↔ text = part :=
  like_iff_splits.trans (splits_noWildcard_iff plain)

/-- A run at the end takes what follows. -/
theorem like_start_iff (plain : NoWildcard part) : like text (part ++ ['%']) ↔ part <+: text := by
  rw [like_iff_splits, splits_append_iff]
  simp only [splits_noWildcard_iff plain, exists_eq_left, splits_run, true_and]
  rfl

/-- A run at the beginning takes what comes before. -/
theorem like_ending_iff (plain : NoWildcard part) : like text ('%' :: part) ↔ part <:+ text := by
  rw [like_iff_splits, ← List.singleton_append, splits_append_iff]
  simp only [splits_noWildcard_iff plain, exists_eq_left, splits_run, true_and]
  rfl

/-- Between two wildcards a text is found anywhere. -/
theorem like_containment_iff (plain : NoWildcard part) :
    like text ('%' :: (part ++ ['%'])) ↔ part <:+: text := by
  rw [like_iff_splits, ← List.singleton_append, splits_append_iff]
  simp only [splits_append_iff, splits_noWildcard_iff plain, exists_eq_left, splits_run, true_and]
  constructor
  · rintro ⟨front, -, ⟨rest, rfl⟩, rfl⟩
    exact ⟨front, rest, List.append_assoc front part rest⟩
  · rintro ⟨front, rest, rfl⟩
    exact ⟨front, _, ⟨rest, rfl⟩, (List.append_assoc front part rest).symm⟩

end Text

/-! ## Values that are texts -/

namespace Value

theorem isNull_of_characters (h : v.characters? = some text) : v.isNull = false := by
  cases v with
  | null => cases h
  | _ => rfl

/-- Only texts are comparable with a text, and they are equal if their characters are. -/
theorem compare_of_characters {o : Ordering} (hw : w.characters? = some part)
    (ho : v.compare w = some o) :
    ∃ text, v.characters? = some text ∧ (o = .eq ↔ text = part) := by
  cases w with
  | text s =>
    cases v with
    | text t =>
      cases hw
      cases ho
      exact ⟨t.toList, rfl, compareText_eq_eq_iff.trans String.toList_inj.symm⟩
    | _ => cases ho
  | constant s =>
    cases v with
    | constant t =>
      cases hw
      cases ho
      exact ⟨t.toList, rfl, compareText_eq_eq_iff.trans String.toList_inj.symm⟩
    | _ => cases ho
  | character c =>
    cases v with
    | character d =>
      cases hw
      cases ho
      refine ⟨[d], rfl, compare_eq_iff_eq.trans ?_⟩
      rw [Char.toNat_inj, List.cons.injEq, eq_self, and_true]
    | _ => cases ho
  | _ => cases hw

end Value

/-! ## Comparisons and patterns -/

namespace Relation

/-- The pattern for what a comparison of texts looks for. -/
inductive AsPattern (part : List Char) : Relation → List Char → Prop
  | whole : AsPattern part .eq part
  | start : AsPattern part .startsWith (part ++ ['%'])
  | ending : AsPattern part .endsWith ('%' :: part)
  | containment : AsPattern part .contains ('%' :: (part ++ ['%']))

/-- Of null nothing is known, whatever it is compared with. -/
theorem apply_of_isNull (null : v.isNull = true) (w : Value) :
    relation.apply v w = .ok .unknown := by
  rw [apply, null, Bool.true_or, if_pos rfl]

/-- A test of texts is made of the characters of two values, and fails if one has none. -/
theorem apply_of_textTest {test : List Char → List Char → Bool}
    (made : relation.textTest? = some test) (known : v.isNull = false)
    (hw : w.characters? = some part) :
    relation.apply v w =
      match v.characters? with
      | some text => .ok (.ofBool (test text part))
      | none => .error (relation.mismatch v w) := by
  simp only [apply, known, Value.isNull_of_characters hw, made, hw, Bool.or_self,
    Bool.false_eq_true, if_false]
  cases v.characters? <;> rfl

/-- Equality makes no test of texts, but all else that a pattern can stand for does. -/
theorem AsPattern.textTest (h : relation.AsPattern part pattern) (plain : Text.NoWildcard part)
    (other : relation ≠ .eq) :
    ∃ test, relation.textTest? = some test ∧ ∀ text, test text part = Text.like text pattern := by
  cases h with
  | whole => exact absurd rfl other
  | start =>
    refine ⟨_, rfl, fun text => Bool.eq_iff_iff.mpr ?_⟩
    rw [Text.like_start_iff plain, List.isPrefixOf_iff_prefix]
  | ending =>
    refine ⟨_, rfl, fun text => Bool.eq_iff_iff.mpr ?_⟩
    rw [Text.like_ending_iff plain, List.isSuffixOf_iff_suffix]
  | containment =>
    refine ⟨_, rfl, fun text => Bool.eq_iff_iff.mpr ?_⟩
    rw [Text.like_containment_iff plain, Text.occursIn_iff]

/-- Equality with a text has an outcome for nulls and texts only, and a match has the same. -/
theorem like_of_eq (plain : Text.NoWildcard part) (hw : w.characters? = some part)
    (hw' : w'.characters? = some part) (h : Relation.eq.apply v w = .ok truth) :
    Relation.like.apply v w' = .ok truth := by
  cases known : v.isNull with
  | true =>
    rw [apply_of_isNull known] at h ⊢
    exact h
  | false =>
    simp only [apply, known, Value.isNull_of_characters hw, textTest?, Bool.or_self,
      Bool.false_eq_true, if_false] at h
    split at h
    · next o ho =>
      -- both are of one kind, and its order has the same texts for equal as their characters
      obtain ⟨text, hv, equal⟩ := Value.compare_of_characters hw ho
      have same : holdsOf .eq o = Text.like text part := by
        rw [Bool.eq_iff_iff, Text.like_whole_iff plain, holdsOf, decide_eq_true_iff, equal]
      rw [same] at h
      rw [apply_of_textTest rfl known hw', hv]
      exact h
    · cases h

/-- A match has the outcome of the comparison that its pattern stands for. -/
theorem AsPattern.like_of_apply (h : relation.AsPattern part pattern)
    (plain : Text.NoWildcard part) (hw : w.characters? = some part)
    (hw' : w'.characters? = some pattern) (made : relation.apply v w = .ok truth) :
    Relation.like.apply v w' = .ok truth := by
  -- equality goes by an order of values, all else by a test of characters
  by_cases equality : relation = .eq
  · subst equality
    cases h
    exact like_of_eq plain hw hw' made
  · obtain ⟨test, htest, same⟩ := h.textTest plain equality
    cases known : v.isNull with
    | true =>
      rw [apply_of_isNull known] at made ⊢
      exact made
    | false =>
      rw [apply_of_textTest htest known hw] at made
      rw [apply_of_textTest rfl known hw']
      cases hv : v.characters? with
      | none => simp [hv] at made
      | some text => simpa only [hv, same] using made

/-- Texts and nulls can be compared with any text. -/
theorem AsPattern.apply_ok (h : relation.AsPattern part pattern) (s : String)
    (hv : v = .null ∨ ∃ t, v = .text t) : ∃ truth, relation.apply v (.text s) = .ok truth := by
  obtain rfl | ⟨t, rfl⟩ := hv
  · exact ⟨.unknown, rfl⟩
  · cases h <;> exact ⟨_, rfl⟩

/-- The comparisons of texts agree with patterns. For a part without wildcards, the pattern that it
is itself matches this part alone, with a `%` behind it it matches what starts with the part, with
one before it what ends with it, and with both what contains it. Between texts, and with null, each
comparison has the outcome of the match with its pattern. Where a comparison has an outcome for
other values that are texts, and for the candidates of an expression, the match has the same. -/
theorem like_agrees (plain : Text.NoWildcard part) :
    (∀ text, (Text.like text part ↔ text = part) ∧
      (Text.like text (part ++ ['%']) ↔ part <+: text) ∧
      (Text.like text ('%' :: part) ↔ part <:+ text) ∧
      (Text.like text ('%' :: (part ++ ['%'])) ↔ part <:+: text)) ∧
    ∀ relation pattern, relation.AsPattern part pattern →
      (∀ v, (v = .null ∨ ∃ t, v = .text t) →
        relation.apply v (.text (String.ofList part)) =
          Relation.like.apply v (.text (String.ofList pattern))) ∧
      ∀ w w', w.characters? = some part → w'.characters? = some pattern →
        (∀ v truth, relation.apply v w = .ok truth → Relation.like.apply v w' = .ok truth) ∧
        ∀ r e truth, (Expression.compare relation e (.literal w)).test r = .ok truth →
          (Expression.compare .like e (.literal w')).test r = .ok truth := by
  have characters (cs : List Char) : (Value.text (String.ofList cs)).characters? = some cs :=
    congrArg some String.toList_ofList
  refine ⟨fun text => ⟨Text.like_whole_iff plain, Text.like_start_iff plain,
    Text.like_ending_iff plain, Text.like_containment_iff plain⟩, fun relation pattern h => ?_⟩
  refine ⟨fun v hv => ?_, fun w w' hw hw' => ?_⟩
  · obtain ⟨truth, made⟩ := h.apply_ok (String.ofList part) hv
    rw [made, h.like_of_apply plain (characters part) (characters pattern) made]
  · have agrees (v : Value) (truth : Truth) (made : relation.apply v w = .ok truth) :
        Relation.like.apply v w' = .ok truth := h.like_of_apply plain hw hw' made
    refine ⟨agrees, fun r e truth tested => ?_⟩
    rw [Expression.test_compare_to (Expression.values_literal _)] at tested ⊢
    obtain ⟨vs, hvs, tested⟩ := bind_eq_ok.mp tested
    obtain ⟨outcomes, each, tested⟩ := bind_eq_ok.mp tested
    have matched : vs.mapM (Relation.like.apply · w') = .ok outcomes :=
      mapM_eq_ok.mpr ((mapM_eq_ok.mp each).imp agrees)
    rw [hvs, ok_bind, matched, ok_bind]
    exact tested

/-- Overlapping occurrences, and the empty text, which every text contains. -/
theorem like_agrees_banana :
    Text.NoWildcard "ana".toList ∧ Text.NoWildcard [] ∧
      Text.like "banana".toList "%ana%".toList ∧ Text.like "banana".toList "%ana".toList ∧
      ¬Text.like "banana".toList "ana%".toList ∧ Text.like "banana".toList "%%".toList ∧
      Relation.like.apply (.text "banana") (.text "%ana%") = .ok .true := by
  have plain : Text.NoWildcard "ana".toList := by decide
  have empty : Text.NoWildcard [] := by decide
  obtain ⟨texts, comparisons⟩ := like_agrees plain
  obtain ⟨-, start, ending, containment⟩ := texts "banana".toList
  refine ⟨plain, empty, containment.mpr ?_, ending.mpr ?_, mt start.mp ?_,
    ((like_agrees empty).1 "banana".toList).2.2.2.mpr List.nil_infix, ?_⟩
  · exact ⟨"b".toList, "na".toList, rfl⟩
  · exact ⟨"ban".toList, rfl⟩
  · decide
  · have same := (comparisons .contains _ .containment).1 (.text "banana") (.inr ⟨_, rfl⟩)
    exact same.symm.trans (by decide +kernel)

end Relation

end EntityQuery
