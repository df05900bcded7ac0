import EntityQuery.Proofs.Alias
import EntityQuery.Proofs.Condition.Extension
import EntityQuery.Proofs.Filter.Rendering
import EntityQuery.Proofs.Filter.Tiling

/-!
# Operators that can be written

A symbol is checked when an operator is added, and read when a filter is scanned. The two agree on
what a symbol is, apart from `==`, which cannot be added (`isOperator_iff`): a text is scanned as
one operator exactly if it passes the check or is `==` (`scan_operator_iff`).

So whatever has been added can be written. Between a selector and an argument a symbol is scanned as
itself: it starts with a reserved character, where the selector ends, and no argument goes on with
it, for none starts with an equals sign.
-/

namespace EntityQuery

open EntityQuery.Filter

/-- The symbols that may be added: five signs, and letters between two equals signs. The built-in
`==` is not among them, since it has no letters. -/
theorem isOperatorSymbol_iff {symbol : String} :
    isOperatorSymbol symbol ↔ symbol ∈ [">", ">=", "<", "<=", "!="] ∨
      ∃ letters : List Char, letters ≠ [] ∧ (∀ c ∈ letters, c.isAlpha) ∧
        symbol.toList = '=' :: (letters ++ ['=']) := by
  rw [isOperatorSymbol, Bool.or_eq_true, decide_eq_true_iff]
  refine or_congr_right ⟨fun h => ?_, ?_⟩
  · split at h
    · next rest htext =>
      split at h
      · next letters hrest =>
        rw [List.reverse_eq_cons_iff] at hrest
        rw [Bool.and_eq_true, decide_eq_true_iff, List.all_eq_true] at h
        refine ⟨letters.reverse, List.reverse_ne_nil_iff.mpr h.1, fun c hc => ?_, ?_⟩
        · exact h.2 c (List.mem_reverse.mp hc)
        · rw [htext, hrest]
      · cases h
    · cases h
  · rintro ⟨letters, nonempty, all, htext⟩
    rw [htext]
    simpa [nonempty] using all

/-- What the scanner takes for an operator is a symbol that can be added, or `==`. -/
theorem isOperator_iff {text : String} :
    IsOperator text ↔ isOperatorSymbol text ∨ text = "==" := by
  rw [isOperatorSymbol_iff]
  constructor
  · rintro (short | ⟨letters, all, htext⟩)
    · simp only [List.mem_cons, List.not_mem_nil, or_false] at short ⊢
      tauto
    · cases letters with
      | nil => exact .inr (String.toList_inj.mp htext)
      | cons c letters => exact .inl (.inr ⟨c :: letters, List.cons_ne_nil _ _, all, htext⟩)
  · rintro ((short | ⟨letters, -, all, htext⟩) | rfl)
    · refine .inl ?_
      simp only [List.mem_cons, List.not_mem_nil, or_false] at short ⊢
      tauto
    · exact .inr ⟨letters, all, htext⟩
    · exact .inr ⟨[], nofun, rfl⟩

/-- A text is scanned as one operator exactly if it is one. The scanner reads as far as it can, so
no operator is cut into two. -/
theorem scan_operator_iff {text : String} :
    (∃ tokens, scan text = .ok tokens ∧ tokens.map (·.token) = [.operator text, .eof]) ↔
      IsOperator text := by
  constructor
  · rintro ⟨tokens, scanned, htokens⟩
    obtain ⟨front, last, rfl, ending, each⟩ := scanFrom_tokens scanned
    have listed : Token.operator text ∈ (front ++ [last]).map (·.token) := by
      rw [htokens]
      exact List.mem_cons_self
    obtain ⟨t, ht, token⟩ := List.mem_map.mp listed
    rcases List.mem_append.mp ht with ht | ht
    · have shaped := (each t ht).1
      rwa [token] at shaped
    · cases (List.mem_singleton.mp ht ▸ token).symm.trans ending
  · intro shape
    have next : ([] : List Char).head? ≠ some '=' := nofun
    have alone := scans_operator shape next scans_nil 0
    rwa [List.append_nil] at alone

/-- A text of which the first token is no operator does not start with an equals sign. -/
theorem head?_ne_equals {input : String} {first : PlacedToken} {rest : List PlacedToken}
    (scanned : scan input = .ok (first :: rest)) (other : ∀ text, first.token ≠ .operator text) :
    input.toList.head? ≠ some '=' := by
  intro hc
  obtain ⟨cs, htext⟩ := List.head?_eq_some_iff.mp hc
  have equals : Text.isBlank '=' = false := by decide
  have visible := scanFrom_visible 0 blanks_nil equals cs
  rw [List.nil_append, ← htext] at visible
  rw [scan, visible] at scanned
  split at scanned
  · cases scanned
  · next token remaining read =>
    obtain ⟨tokens, -, same⟩ := map_eq_ok.mp scanned
    cases same
    cases readToken_eq_ok.mp read with
    | mark cs mark => simp [marks] at mark
    | named named =>
      unfold readNamedOperator at named
      dsimp only at named
      split at named
      · cases named
        exact other _ rfl
      · cases named
    | angle angle read => simp at angle
    | quoted quote read => simp at quote
    | word cs free => cases free

/-- The tokens of a text are those that it has wherever it stands, blanks in front of it or not. -/
theorem scans_of_scan {gap : List Char} {input : String} {tokens : List PlacedToken}
    (blank : Blanks gap) (scanned : scan input = .ok tokens) :
    Scans (gap ++ input.toList) (tokens.map (·.token)) := by
  obtain ⟨lead, ps, leading, cut, text, rfl⟩ := exists_cut scanned
  intro position
  have both : Blanks (gap ++ lead) := List.forall_mem_append.mpr ⟨blank, leading⟩
  rw [text, ← List.append_assoc]
  exact ⟨_, cut.scans both position, by rw [map_token_place, map_token_place]⟩

/-- Between a word and a text that does not start with an operator, an operator is scanned as
itself. -/
theorem scan_between {selector gap symbol argument : String} {first : PlacedToken}
    {rest : List PlacedToken} (word : IsWord selector) (blank : Blanks gap.toList)
    (shape : IsOperator symbol) (scanned : scan argument = .ok (first :: rest))
    (other : ∀ text, first.token ≠ .operator text) :
    ∃ tokens, scan (selector ++ gap ++ symbol ++ argument) = .ok tokens ∧
      tokens.map (·.token) =
        .word selector :: .operator symbol :: (first :: rest).map (·.token) := by
  have argued : Scans argument.toList _ := scans_of_scan blanks_nil scanned
  -- An angle would take an equals sign that follows, so the argument must not start with one.
  obtain ⟨written, hwritten, tokens⟩ :=
    scans_operator shape (head?_ne_equals scanned other) argued 0
  rw [← String.toList_append] at hwritten
  have behind := scans_of_scan blank hwritten
  rw [tokens, String.toList_append] at behind
  have whole := scans_word word (ends_blanks blank (ends_operator shape _)) behind 0
  have text : (selector ++ gap ++ symbol ++ argument).toList =
      selector.toList ++ (gap.toList ++ (symbol.toList ++ argument.toList)) := by
    simp only [String.toList_append, List.append_assoc]
  rw [scan, text]
  exact whole

/-! ## Added operators -/

/-- Every symbol of legal operators is such a symbol. -/
theorem isOperatorSymbol_of_legal {operators : List ComparisonOperator}
    (legal : firstIllegalSymbol operators = none) :
    ∀ op ∈ operators, ∀ symbol ∈ op.symbols, isOperatorSymbol symbol := by
  induction operators with
  | nil => exact nofun
  | cons op operators ih =>
    rw [firstIllegalSymbol] at legal
    split at legal
    · cases legal
    split at legal
    · cases legal
    · next fine =>
      refine List.forall_mem_cons.mpr ⟨fun symbol hsymbol => ?_, ih legal⟩
      simpa using List.find?_eq_none.mp fine symbol hsymbol

namespace Config

/-- What can be written as an operator is `==` and whatever can be added. So in a configuration
with added operators each of their symbols, between a selector and an argument, is scanned as that
symbol, and stands for one of them that has it. -/
theorem operators_writable :
    (∀ text, (∃ tokens, scan text = .ok tokens ∧
        tokens.map (·.token) = [.operator text, .eof]) ↔ isOperatorSymbol text ∨ text = "==") ∧
    ∀ catalog pattern operators handlers depth config,
      build catalog pattern operators handlers depth = .ok config →
      ∀ op ∈ operators, ∀ symbol ∈ op.symbols,
        (∀ selector gap argument first rest, IsWord selector → Blanks gap.toList →
          scan argument = .ok (first :: rest) → (∀ text, first.token ≠ .operator text) →
          ∃ tokens, scan (selector ++ gap ++ symbol ++ argument) = .ok tokens ∧
            tokens.map (·.token) =
              .word selector :: .operator symbol :: (first :: rest).map (·.token)) ∧
        ∃ carrier ∈ operators, config.operator symbol = .ok carrier ∧
          symbol ∈ carrier.symbols := by
  refine ⟨fun text => scan_operator_iff.trans isOperator_iff, ?_⟩
  intro catalog pattern operators handlers depth config built op hop symbol has
  obtain ⟨legal, rfl⟩ := build_eq_ok.mp built
  have shape : IsOperator symbol :=
    isOperator_iff.mpr (.inl (isOperatorSymbol_of_legal legal op hop symbol has))
  refine ⟨fun selector gap argument first rest word blank scanned other => ?_, ?_⟩
  · exact scan_between word blank shape scanned other
  · exact (AliasTable.standsFor_operator rfl symbol).of_merged hop has

/-- Of two operators with the spelling `>` the one that is added last carries it. It is scanned as
one token also where a list follows it directly. -/
theorem operators_writable_sample :
    ∃ config, build Sample.catalog none [⟨none, ["=matches=", ">"]⟩, ⟨none, [">"]⟩] [] =
        .ok config ∧
      (∃ tokens, scan "name >(a,'b')" = .ok tokens ∧ tokens.map (·.token) =
        [.word "name", .operator ">", .leftParen, .word "a", .comma, .quoted "b", .rightParen,
          .eof]) ∧
      ∃ carrier ∈ [⟨none, ["=matches=", ">"]⟩, ⟨none, [">"]⟩],
        config.operator ">" = .ok carrier ∧ ">" ∈ carrier.symbols := by
  have legal : firstIllegalSymbol [⟨none, ["=matches=", ">"]⟩, ⟨none, [">"]⟩] = none := by
    decide +kernel
  have built : build Sample.catalog none [⟨none, ["=matches=", ">"]⟩, ⟨none, [">"]⟩] [] = .ok _ :=
    build_eq_ok.mpr ⟨legal, rfl⟩
  obtain ⟨written, carried⟩ := operators_writable.2 Sample.catalog none _ [] _ _ built
    ⟨none, ["=matches=", ">"]⟩ List.mem_cons_self ">" (by decide)
  have argument : scan "(a,'b')" = .ok [⟨.leftParen, 0⟩, ⟨.word "a", 1⟩, ⟨.comma, 2⟩,
      ⟨.quoted "b", 3⟩, ⟨.rightParen, 6⟩, ⟨.eof, 7⟩] := by decide +kernel
  have word : IsWord "name" := by decide +kernel
  have blank : Blanks " ".toList := by decide +kernel
  have between := written "name" " " "(a,'b')" _ _ word blank argument nofun
  exact ⟨_, built, between, carried⟩

end Config

end EntityQuery
