import EntityQuery.Proofs.Filter.WellFormed

/-!
# The tokens of a rendered tree

`Node.tokens` is what a tree is made of when it is written: a selector, an operator and arguments
for a comparison, and parentheses around the children of a junction. Rendering a well-formed tree
and scanning the text gives these tokens back (`scansBack`), whatever its arguments are: a word
that is written bare ends at the next reserved character, and one that is not is quoted, with its
quotes and backslashes escaped.

Positions play no part in this. `Scans` speaks of the text from any position on, so the scan of a
part of a text is put in front of the scan of what is behind it.
-/

namespace EntityQuery.Filter

def argumentToken (argument : String) : Token :=
  if argument.toList = [] ∨ argument.toList.any isReserved then .quoted argument
  else .word argument

/-- The tokens of arguments, with commas between them. -/
def argumentTokens : List String → List Token
  | [] => []
  | [a] => [argumentToken a]
  | a :: as => argumentToken a :: .comma :: argumentTokens as

/-- The token between the children of a junction. -/
def Junction.token : Junction → Token
  | .and => .semicolon
  | .or => .comma

mutual

/-- The tokens of a tree. -/
def Node.tokens : Node → List Token
  | .comparison selector operator [argument] =>
    [.word selector, .operator operator, argumentToken argument]
  | .comparison selector operator arguments =>
    .word selector :: .operator operator :: .leftParen ::
      (argumentTokens arguments ++ [.rightParen])
  | .logical junction children =>
    .leftParen :: (Node.tokensOfAll junction.token children ++ [.rightParen])

/-- The tokens of a list of trees, with a separator between them. -/
def Node.tokensOfAll (separator : Token) : List Node → List Token
  | [] => []
  | [n] => n.tokens
  | n :: ns => n.tokens ++ separator :: tokensOfAll separator ns

end

/-! ## Scanning a text -/

/-- A text has the given tokens, wherever it stands. -/
def Scans (cs : List Char) (ts : List Token) : Prop :=
  ∀ position, ∃ tokens, scanFrom position cs = .ok tokens ∧ tokens.map (·.token) = ts

theorem scans_nil : Scans [] [.eof] :=
  fun position => ⟨_, scanFrom_blanks position blanks_nil, rfl⟩

/-- A token that is read stands in front of those of the rest. -/
theorem scans_cons {c : Char} {cs rest : List Char} {t : Token} {ts : List Token}
    (visible : Text.isBlank c = false) (hr : readToken c cs = .ok (t, rest)) (h : Scans rest ts) :
    Scans (c :: cs) (t :: ts) := by
  intro position
  have front := scanFrom_visible position blanks_nil visible cs
  rw [hr] at front
  obtain ⟨tokens, scanned, rfl⟩ := h (position + 1 + (cs.length - rest.length))
  exact ⟨⟨t, position⟩ :: tokens, front.trans (map_eq_ok.mpr ⟨tokens, scanned, rfl⟩), rfl⟩

variable {cs : List Char} {ts : List Token}

theorem scans_leftParen (h : Scans cs ts) : Scans ('(' :: cs) (.leftParen :: ts) :=
  scans_cons (by decide) rfl h

theorem scans_rightParen (h : Scans cs ts) : Scans (')' :: cs) (.rightParen :: ts) :=
  scans_cons (by decide) rfl h

theorem scans_comma (h : Scans cs ts) : Scans (',' :: cs) (.comma :: ts) :=
  scans_cons (by decide) rfl h

/-- The separator of a junction is scanned as the token of the junction. -/
theorem scans_separator (junction : Junction) (h : Scans cs ts) :
    Scans (junction.separator.toList ++ cs) (junction.token :: ts) := by
  cases junction with
  | and => exact scans_cons (c := ';') (by decide) rfl h
  | or => exact scans_comma h

theorem ends_separator (junction : Junction) (cs : List Char) :
    Ends (junction.separator.toList ++ cs) := by
  cases junction with
  | and => exact ends_cons (c := ';') (by decide) cs
  | or => exact ends_cons (c := ',') (by decide) cs

/-- A word is scanned as a word in front of whatever ends it. Two words next to each other would be
one, so this is asked for. -/
theorem scans_word {text : String} (word : IsWord text) (ends : Ends cs) (h : Scans cs ts) :
    Scans (text.toList ++ cs) (.word text :: ts) := by
  obtain ⟨nonempty, free⟩ := word
  cases hc : text.toList with
  | nil => exact absurd hc nonempty
  | cons c rest =>
    rw [hc] at free
    have hfree := free c List.mem_cons_self
    obtain ⟨taken, dropped⟩ := span_free (fun d hd => free d (List.mem_cons_of_mem _ hd)) ends
    refine scans_cons ?_ ?_ h
    · cases blank : Text.isBlank c with
      | false => rfl
      | true => rw [isReserved_of_isBlank blank] at hfree; cases hfree
    · change readToken c (rest ++ cs) = _
      rw [readToken_word hfree, taken, dropped, ← hc, String.ofList_toList]

/-- An operator is scanned as a whole, unless an equals sign follows that it would take too. -/
theorem scans_operator {text : String} (shape : IsOperator text) (next : cs.head? ≠ some '=')
    (h : Scans cs ts) : Scans (text.toList ++ cs) (.operator text :: ts) := by
  rcases shape with short | ⟨letters, all, htext⟩
  · simp only [List.mem_cons, List.not_mem_nil, or_false] at short
    rcases short with rfl | rfl | rfl | rfl | rfl
    · exact scans_cons (c := '!') (by decide) rfl h
    · exact scans_cons (c := '<') (by decide) (congrArg Except.ok (readAngle_eq '<' next)) h
    · exact scans_cons (c := '<') (by decide) rfl h
    · exact scans_cons (c := '>') (by decide) (congrArg Except.ok (readAngle_eq '>' next)) h
    · exact scans_cons (c := '>') (by decide) rfl h
  · rw [htext, List.cons_append, List.append_assoc]
    refine scans_cons (by decide) ?_ h
    change readNamedOperator _ = _
    unfold readNamedOperator
    rw [List.takeWhile_append_of_pos all, List.dropWhile_append_of_pos all]
    have spelled : String.ofList ('=' :: letters ++ ['=']) = text := by
      rw [List.cons_append, ← htext, String.ofList_toList]
    change Except.ok (Token.operator (String.ofList ('=' :: (letters ++ []) ++ ['='])), cs) = _
    rw [List.append_nil, spelled]

/-- An operator begins with a reserved character and so ends the selector in front of it. -/
theorem ends_operator {text : String} (shape : IsOperator text) (cs : List Char) :
    Ends (text.toList ++ cs) := by
  rcases shape with short | ⟨letters, -, htext⟩
  · simp only [List.mem_cons, List.not_mem_nil, or_false] at short
    rcases short with rfl | rfl | rfl | rfl | rfl <;> exact ends_cons (by decide) _
  · rw [htext]
    exact ends_cons (by decide) _

/-! ## Scanning arguments -/

/-- What is escaped is read back, up to the closing quote. -/
theorem readQuoted_escaped (argument cs : List Char) :
    readQuoted '\'' (argument.flatMap escapeQuoted ++ '\'' :: cs) = some (argument, cs) := by
  induction argument with
  | nil =>
    rw [List.flatMap_nil, List.nil_append, readQuoted_close]
  | cons c argument ih =>
    rw [List.flatMap_cons, List.append_assoc]
    by_cases special : c = '\\' ∨ c = '\''
    · have escaped : escapeQuoted c = ['\\', c] := if_pos special
      rw [escaped, List.cons_append, List.singleton_append, readQuoted_escape (by decide), ih]
      rfl
    · have plain : escapeQuoted c = [c] := if_neg special
      obtain ⟨backslash, quote⟩ := not_or.mp special
      rw [plain, List.singleton_append, readQuoted_plain quote backslash, ih]
      rfl

/-- An argument that is written without quotes is a word. -/
theorem isWord_of_bare {argument : String}
    (bare : ¬(argument.toList = [] ∨ argument.toList.any isReserved)) : IsWord argument := by
  obtain ⟨nonempty, free⟩ := not_or.mp bare
  refine ⟨nonempty, fun c hc => ?_⟩
  cases reserved : isReserved c with
  | false => rfl
  | true => exact absurd (List.any_eq_true.mpr ⟨c, hc, reserved⟩) free

/-- A word is written as it is. -/
theorem IsWord.argumentText_eq {argument : String} (word : IsWord argument) :
    argumentText argument = argument := by
  have free : argument.toList.any isReserved = false := by
    rw [List.any_eq_false]
    exact fun c hc => Bool.eq_false_iff.mp (word.2 c hc)
  simp only [argumentText, word.1, free, Bool.false_eq_true, or_self, if_false]

/-- What is written between quotes is read back, for each backslash and quote in it has a backslash
in front. -/
theorem readToken_quoted (argument : String) (cs : List Char) :
    readToken '\'' (argument.toList.flatMap escapeQuoted ++ '\'' :: cs) =
      .ok (.quoted argument, cs) := by
  have text := String.ofList_toList (s := argument)
  simp [readToken, readQuoted_escaped, text]

/-- An argument is scanned as one token in either way of writing it. -/
theorem scans_argument (argument : String) (ends : Ends cs) (h : Scans cs ts) :
    Scans ((argumentText argument).toList ++ cs) (argumentToken argument :: ts) := by
  unfold argumentText argumentToken
  dsimp only
  split
  · have quote : "'".toList = ['\''] := rfl
    rw [String.toList_append, String.toList_append, quote, String.toList_ofList, List.append_assoc,
      List.append_assoc, List.singleton_append, List.singleton_append]
    exact scans_cons (c := '\'') (by decide) (readToken_quoted argument cs) h
  · next bare => exact scans_word (isWord_of_bare bare) ends h

/-- No argument starts with an equals sign when it is written. An operator in front of it would take
that for its own. -/
theorem argumentText_head (argument : String) (cs : List Char) :
    ((argumentText argument).toList ++ cs).head? ≠ some '=' := by
  unfold argumentText
  dsimp only
  split
  · rw [String.toList_append, String.toList_append, List.append_assoc, List.append_assoc]
    exact fun quote => by cases quote
  · next bare =>
    obtain ⟨nonempty, free⟩ := isWord_of_bare bare
    cases hc : argument.toList with
    | nil => exact absurd hc nonempty
    | cons c rest =>
      have hfree := free c (hc ▸ List.mem_cons_self)
      rintro ⟨⟩
      cases hfree

/-- A list of arguments is scanned up to the parenthesis behind it. -/
theorem scans_arguments {arguments : List String} (nonempty : arguments ≠ []) (ends : Ends cs)
    (h : Scans cs ts) :
    Scans ((argumentsText arguments).toList ++ cs) (argumentTokens arguments ++ ts) := by
  induction arguments with
  | nil => exact absurd rfl nonempty
  | cons a as ih =>
    cases as with
    | nil => exact scans_argument a ends h
    | cons b bs =>
      have rest := ih (List.cons_ne_nil _ _)
      rw [argumentsText, argumentTokens, String.toList_append, String.toList_append,
        List.append_assoc, List.append_assoc]
      · exact scans_argument a (ends_cons (by decide) _) (scans_comma rest)
      all_goals exact List.cons_ne_nil _ _

/-! ## Scanning trees -/

/-- The text of a tree has its tokens, whatever follows from where a word ends. -/
def ScansBack (n : Node) : Prop :=
  ∀ (cs : List Char) (ts : List Token), Ends cs → Scans cs ts →
    Scans (n.text.toList ++ cs) (n.tokens ++ ts)

/-- A comparison with one argument is written without parentheses, and with several between
them. -/
theorem Node.text_comparison_cons (selector operator a b : String) (as : List String) :
    (Node.comparison selector operator (a :: b :: as)).text =
      selector ++ operator ++ "(" ++ argumentsText (a :: b :: as) ++ ")" := by
  rw [Node.text]
  rintro c ⟨⟩

/-- A comparison is scanned up to where a word ends. One argument stands alone and may run on into
what follows, so that must not start with a character of a word; several are closed by their
parenthesis. -/
theorem scansBack_comparison {selector operator : String} {arguments : List String}
    (word : IsWord selector) (shape : IsOperator operator) (nonempty : arguments ≠ []) :
    ScansBack (.comparison selector operator arguments) := by
  intro cs ts ends h
  match arguments, nonempty with
  | [a], _ =>
    rw [Node.text, Node.tokens, String.toList_append, String.toList_append, List.append_assoc,
      List.append_assoc]
    exact scans_word word (ends_operator shape _) (scans_operator shape (argumentText_head a cs)
      (scans_argument a ends h))
  | a :: b :: as, _ =>
    have inner := scans_arguments (List.cons_ne_nil a (b :: as)) (ends_cons (by decide) cs)
      (scans_rightParen h)
    have opening : "(".toList = ['('] := rfl
    have closing : ")".toList = [')'] := rfl
    rw [Node.text_comparison_cons]
    simp only [String.toList_append, List.append_assoc, opening, closing, List.singleton_append]
    have tokens : argumentTokens (a :: b :: as) ++ .rightParen :: ts =
        (argumentTokens (a :: b :: as) ++ [.rightParen]) ++ ts := by
      rw [List.append_assoc, List.singleton_append]
    rw [tokens] at inner
    exact scans_word word (ends_operator shape _)
      (scans_operator shape (fun h => by cases h) (scans_leftParen inner))

/-- Trees with a separator between them are scanned up to the parenthesis behind them, if each of
them is. -/
theorem scans_textOfAll {j : Junction} {ns : List Node} (nonempty : ns ≠ [])
    (each : ∀ n ∈ ns, ScansBack n) (ends : Ends cs) (h : Scans cs ts) :
    Scans ((Node.textOfAll j.separator ns).toList ++ cs)
      (Node.tokensOfAll j.token ns ++ ts) := by
  induction ns with
  | nil => exact absurd rfl nonempty
  | cons n ns ih =>
    cases ns with
    | nil => exact each n List.mem_cons_self cs ts ends h
    | cons m ms =>
      have rest := ih (List.cons_ne_nil _ _) fun n hn => each n (List.mem_cons_of_mem _ hn)
      have separated := ends_separator j ((Node.textOfAll j.separator (m :: ms)).toList ++ cs)
      rw [Node.textOfAll, Node.tokensOfAll, String.toList_append, String.toList_append,
        List.append_assoc, List.append_assoc, List.append_assoc]
      · exact each n List.mem_cons_self _ _ separated (scans_separator j rest)
      all_goals exact List.cons_ne_nil _ _

/-- The text of a well-formed tree is scanned into its tokens. Only what stands behind the text has
to be thought of: it must not go on with a word. -/
theorem scansBack {n : Node} (wf : n.WellFormed) : ScansBack n := by
  induction n using Node.induct with
  | comparison selector operator arguments =>
    cases wf with
    | comparison word shape nonempty => exact scansBack_comparison word shape nonempty
  | logical junction children ih =>
    cases wf with
    | logical two each =>
      have nonempty : children ≠ [] := by
        rintro rfl
        cases two
      intro cs ts ends h
      have inner := scans_textOfAll (j := junction) nonempty (fun n hn => ih n hn (each n hn))
        (ends_cons (by decide) cs) (scans_rightParen h)
      have opening : "(".toList = ['('] := rfl
      have closing : ")".toList = [')'] := rfl
      rw [Node.text, Node.tokens]
      simp only [String.toList_append, List.append_assoc, opening, closing, List.cons_append]
      exact scans_leftParen inner

end EntityQuery.Filter
