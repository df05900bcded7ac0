import EntityQuery.Filter.Scan
import EntityQuery.Proofs.Failure
import Mathlib.Data.List.TakeWhile

/-!
# Lexemes

A token is read from the characters at the front of a text, its lexeme, and of what stands behind
the lexeme no more than the next character is looked at: a word ends in front of a reserved
character, and an angle in front of anything but an equals sign. So the same token is read from the
lexeme in front of any text that starts with the same character, or with a blank, or is empty
(`Takes.of_endsAs`).

A scan is a run of such readings with blanks between them. What is proved of all scans is proved by
`scanFrom_induct`, in which a text is nothing but blanks, or blanks in front of a fault, or blanks
in front of a lexeme.
-/

namespace EntityQuery.Filter

variable {c : Char} {cs rest : List Char} {t : Token}

/-! ## Words -/

/-- A word ends here: at a reserved character or at the end of the text. -/
def Ends (cs : List Char) : Prop := ∀ c ∈ cs.head?, isReserved c

/-- A reserved character ends a word. -/
theorem ends_cons (reserved : isReserved c) (cs : List Char) : Ends (c :: cs) := by
  rintro d ⟨⟩
  exact reserved

/-- Blanks are reserved, so they end words as well. -/
theorem isReserved_of_isBlank (h : Text.isBlank c) : isReserved c := by
  rw [isReserved, h, Bool.or_true]

/-- A character that is not reserved starts a word, which goes on to the next reserved one. -/
theorem readToken_word (free : isReserved c = false) (cs : List Char) :
    readToken c cs =
      .ok (.word (String.ofList (c :: cs.takeWhile (!isReserved ·))),
        cs.dropWhile (!isReserved ·)) := by
  have other : ∀ d, isReserved d = true → c ≠ d := by
    rintro d hd rfl
    rw [free] at hd
    cases hd
  unfold readToken
  rw [if_neg (other '(' (by decide)), if_neg (other ')' (by decide)),
    if_neg (other ';' (by decide)), if_neg (other ',' (by decide)), if_neg (other '=' (by decide)),
    if_neg (not_or.mpr ⟨other '<' (by decide), other '>' (by decide)⟩),
    if_neg (other '!' (by decide)),
    if_neg (not_or.mpr ⟨other '\'' (by decide), other '"' (by decide)⟩), free]
  rfl

/-- A run of free characters goes up to where a word ends. -/
theorem span_free {word : List Char} (free : ∀ c ∈ word, isReserved c = false) (ends : Ends cs) :
    (word ++ cs).takeWhile (!isReserved ·) = word ∧
      (word ++ cs).dropWhile (!isReserved ·) = cs := by
  have all : ∀ c ∈ word, (!isReserved c) = true := fun c hc => by rw [free c hc]; rfl
  rw [List.takeWhile_append_of_pos all, List.dropWhile_append_of_pos all]
  cases cs with
  | nil => exact ⟨List.append_nil _, rfl⟩
  | cons c cs =>
    have reserved := ends c rfl
    rw [List.takeWhile_cons, List.dropWhile_cons, reserved]
    exact ⟨List.append_nil _, rfl⟩

/-! ## What is behind a lexeme -/

/-- A text ends a token that another text ends: it starts with the same character, or with a blank,
or is empty. -/
def EndsAs (rest rest' : List Char) : Prop :=
  rest'.head? = rest.head? ∨ ∀ c ∈ rest'.head?, Text.isBlank c

variable {rest' : List Char}

/-- Texts that end a word alike can stand for each other behind a word. -/
theorem EndsAs.ends (h : EndsAs rest rest') (ends : Ends rest) : Ends rest' := by
  rcases h with same | blank
  · rwa [Ends, same]
  · exact fun c hc => isReserved_of_isBlank (blank c hc)

theorem EndsAs.head_ne (h : EndsAs rest rest') (visible : Text.isBlank c = false)
    (other : rest.head? ≠ some c) : rest'.head? ≠ some c := by
  rcases h with same | blank
  · rwa [same]
  · intro hc
    cases visible.symm.trans (blank c hc)

theorem readAngle_eq (c : Char) (next : cs.head? ≠ some '=') :
    readAngle c cs = (.operator (String.ofList [c]), cs) := by
  unfold readAngle
  split
  · exact absurd rfl next
  · rfl

/-- A sign of order takes one character or two, and does the same in front of any text that goes on
alike. -/
theorem readAngle_lexeme (h : readAngle c cs = (t, rest)) :
    ∃ lexeme, cs = lexeme ++ rest ∧
      ∀ rest', EndsAs rest rest' → readAngle c (lexeme ++ rest') = (t, rest') := by
  unfold readAngle at h
  split at h
  · cases h
    exact ⟨['='], rfl, fun rest' _ => rfl⟩
  · next other =>
    cases h
    have next : cs.head? ≠ some '=' := by
      intro hc
      obtain ⟨behind, rfl⟩ := List.head?_eq_some_iff.mp hc
      exact other behind rfl
    exact ⟨[], rfl, fun rest' ends => readAngle_eq c (ends.head_ne (by decide) next)⟩

/-- An operator in letters ends with its second equals sign, whatever stands behind it. -/
theorem readNamedOperator_lexeme (h : readNamedOperator cs = .ok (t, rest)) :
    ∃ lexeme, cs = lexeme ++ rest ∧
      ∀ rest', readNamedOperator (lexeme ++ rest') = .ok (t, rest') := by
  unfold readNamedOperator at h
  dsimp only at h
  split at h
  · next behind closed =>
    cases h
    have letters : ∀ c ∈ cs.takeWhile isOperatorLetter, isOperatorLetter c := fun c hc =>
      List.mem_takeWhile_imp hc
    refine ⟨cs.takeWhile isOperatorLetter ++ ['='], ?_, fun rest' => ?_⟩
    · rw [List.append_assoc, List.singleton_append, ← closed, List.takeWhile_append_dropWhile]
    · unfold readNamedOperator
      rw [List.append_assoc, List.takeWhile_append_of_pos letters,
        List.dropWhile_append_of_pos letters, List.singleton_append]
      simp [isOperatorLetter]
  · cases h

/-- Between quotes a character stands for itself. -/
theorem readQuoted_plain {quote : Char} (hq : c ≠ quote) (hb : c ≠ '\\') (cs : List Char) :
    readQuoted quote (c :: cs) =
      (readQuoted quote cs).map fun (text, rest) => (c :: text, rest) := by
  rw [readQuoted.eq_def]
  dsimp only
  rw [if_neg hq, if_neg hb]

/-- A backslash between quotes makes the next character stand for itself, the quote included. -/
theorem readQuoted_escape {quote : Char} (hq : '\\' ≠ quote) (c : Char) (cs : List Char) :
    readQuoted quote ('\\' :: c :: cs) =
      (readQuoted quote cs).map fun (text, rest) => (c :: text, rest) := by
  rw [readQuoted.eq_def]
  dsimp only
  rw [if_neg hq, if_pos rfl]

theorem readQuoted_close (quote : Char) (cs : List Char) :
    readQuoted quote (quote :: cs) = some ([], cs) := by
  rw [readQuoted.eq_def]
  dsimp only
  rw [if_pos rfl]

/-- A closing quote ends an argument, whatever is behind it. What was read is therefore a lexeme: it
can be taken out of its text, and is read alike in front of any other. -/
theorem readQuoted_lexeme {quote : Char} {text : List Char}
    (h : readQuoted quote cs = some (text, rest)) :
    ∃ lexeme, cs = lexeme ++ rest ∧
      ∀ rest', readQuoted quote (lexeme ++ rest') = some (text, rest') := by
  fun_induction readQuoted quote cs generalizing text rest with
  | case1 => cases h
  | case2 cs =>
    cases h
    exact ⟨[quote], rfl, readQuoted_close quote⟩
  | case3 => cases h
  | case4 e cs hq ih =>
    obtain ⟨⟨front, behind⟩, read, same⟩ := Option.map_eq_some_iff.mp h
    cases same
    obtain ⟨lexeme, rfl, again⟩ := ih read
    refine ⟨'\\' :: e :: lexeme, rfl, fun rest' => ?_⟩
    rw [List.cons_append, List.cons_append, readQuoted_escape hq, again]
    rfl
  | case5 c cs hq hb ih =>
    obtain ⟨⟨front, behind⟩, read, same⟩ := Option.map_eq_some_iff.mp h
    cases same
    obtain ⟨lexeme, rfl, again⟩ := ih read
    refine ⟨c :: lexeme, rfl, fun rest' => ?_⟩
    rw [List.cons_append, readQuoted_plain hq hb, again]
    rfl

/-! ## Tokens -/

/-- The tokens of one character. -/
def marks : List (Char × Token) :=
  [('(', .leftParen), (')', .rightParen), (';', .semicolon), (',', .comma)]

/-- The ways in which a token that starts with a character is taken from a text, leaving a rest. -/
inductive Takes : Char → List Char → Token → List Char → Prop
  | mark {c : Char} {t : Token} (cs : List Char) (mark : (c, t) ∈ marks) : Takes c cs t cs
  | named {cs rest : List Char} {t : Token} (read : readNamedOperator cs = .ok (t, rest)) :
    Takes '=' cs t rest
  | angle {c : Char} {cs rest : List Char} {t : Token} (angle : c = '<' ∨ c = '>')
    (read : readAngle c cs = (t, rest)) : Takes c cs t rest
  | unequal (cs : List Char) : Takes '!' ('=' :: cs) (.operator "!=") cs
  | quoted {c : Char} {cs text rest : List Char} (quote : c = '\'' ∨ c = '"')
    (read : readQuoted c cs = some (text, rest)) :
    Takes c cs (.quoted (String.ofList text)) rest
  | word {c : Char} (cs : List Char) (free : isReserved c = false) :
    Takes c cs (.word (String.ofList (c :: cs.takeWhile (!isReserved ·))))
      (cs.dropWhile (!isReserved ·))

theorem Takes.readToken (h : Takes c cs t rest) : readToken c cs = .ok (t, rest) := by
  cases h with
  | mark cs mark =>
    simp only [marks, List.mem_cons, Prod.mk.injEq, List.not_mem_nil, or_false] at mark
    rcases mark with ⟨rfl, rfl⟩ | ⟨rfl, rfl⟩ | ⟨rfl, rfl⟩ | ⟨rfl, rfl⟩ <;> rfl
  | named read => exact read
  | angle angle read => rcases angle with rfl | rfl <;> exact congrArg Except.ok read
  | unequal cs => rfl
  | quoted quote read => rcases quote with rfl | rfl <;> simp [Filter.readToken, read]
  | word cs free => exact readToken_word free cs

/-- What `readToken` does, way by way. `Takes` has a constructor for each form of token; it says
what is taken and where it ends, without the order in which the scanner tries. -/
theorem readToken_eq_ok : readToken c cs = .ok (t, rest) ↔ Takes c cs t rest := by
  refine ⟨fun h => ?_, Takes.readToken⟩
  -- the scanner tries its forms in a fixed order, and each excludes those behind it
  unfold readToken at h
  split at h
  · next paren =>
    cases h
    exact .mark cs (paren ▸ by decide)
  split at h
  · next paren =>
    cases h
    exact .mark cs (paren ▸ by decide)
  split at h
  · next semicolon =>
    cases h
    exact .mark cs (semicolon ▸ by decide)
  split at h
  · next comma =>
    cases h
    exact .mark cs (comma ▸ by decide)
  split at h
  · next equals => exact equals ▸ .named h
  split at h
  · next angle => exact .angle angle (Except.ok.inj h)
  split at h
  · next exclamation =>
    split at h
    · cases h
      exact exclamation ▸ .unequal rest
    · cases h
  split at h
  · next quote =>
    split at h
    · next read =>
      cases h
      exact .quoted quote read
    · cases h
  split at h
  · cases h
  · next free =>
    cases h
    exact .word cs (Bool.not_eq_true _ ▸ free)

/-- A token is taken from its lexeme, and again wherever the lexeme stands in front of a text that
ends it as well. -/
theorem Takes.lexeme (h : Takes c cs t rest) :
    ∃ lexeme, cs = lexeme ++ rest ∧
      ∀ rest', EndsAs rest rest' → Takes c (lexeme ++ rest') t rest' := by
  cases h with
  | mark cs mark => exact ⟨[], rfl, fun rest' _ => .mark rest' mark⟩
  | named read =>
    obtain ⟨lexeme, rfl, again⟩ := readNamedOperator_lexeme read
    exact ⟨lexeme, rfl, fun rest' _ => .named (again rest')⟩
  | angle angle read =>
    obtain ⟨lexeme, rfl, again⟩ := readAngle_lexeme read
    exact ⟨lexeme, rfl, fun rest' ends => .angle angle (again rest' ends)⟩
  | unequal cs => exact ⟨['='], rfl, fun rest' _ => .unequal rest'⟩
  | quoted quote read =>
    obtain ⟨lexeme, rfl, again⟩ := readQuoted_lexeme read
    exact ⟨lexeme, rfl, fun rest' _ => .quoted quote (again rest')⟩
  | word cs free =>
    have run : ∀ d ∈ cs.takeWhile (!isReserved ·), isReserved d = false := by
      intro d hd
      have free := List.mem_takeWhile_imp hd
      rwa [Bool.not_eq_true'] at free
    -- A word ends where a reserved character is next, and blanks are reserved.
    have stops : Ends (cs.dropWhile (!isReserved ·)) := by
      intro d hd
      have reserved := List.head?_dropWhile_not (!isReserved ·) cs
      rw [Option.mem_def.mp hd] at reserved
      simpa using reserved
    refine ⟨cs.takeWhile (!isReserved ·), List.takeWhile_append_dropWhile.symm,
      fun rest' ends => ?_⟩
    obtain ⟨taken, dropped⟩ := span_free run (ends.ends stops)
    have word := Takes.word (cs.takeWhile (!isReserved ·) ++ rest') free
    rwa [taken, dropped] at word

/-- What a token takes off a text depends on how the rest begins, and on no more of it. This lets
the spaces between tokens be changed. -/
theorem Takes.of_endsAs {lexeme : List Char} (h : Takes c (lexeme ++ rest) t rest)
    (ends : EndsAs rest rest') : Takes c (lexeme ++ rest') t rest' := by
  obtain ⟨taken, same, again⟩ := h.lexeme
  rw [List.append_cancel_right same]
  exact again rest' ends

/-! ## Scans -/

/-- A text of nothing but blanks. -/
def Blanks (cs : List Char) : Prop := ∀ c ∈ cs, Text.isBlank c

instance (cs : List Char) : Decidable (Blanks cs) :=
  decidable_of_iff (cs.all Text.isBlank) List.all_eq_true

variable {blanks lexeme : List Char} {fault : SyntaxFault}

theorem blanks_nil : Blanks [] := nofun

theorem ends_blanks (h : Blanks blanks) (ends : Ends cs) : Ends (blanks ++ cs) := by
  cases blanks with
  | nil => exact ends
  | cons b blanks => exact ends_cons (isReserved_of_isBlank (h b List.mem_cons_self)) _

/-- A text of which something is visible starts with blanks and then a visible character. -/
theorem span_blanks (h : Blanks blanks) (visible : Text.isBlank c = false) (cs : List Char) :
    (blanks ++ c :: cs).takeWhile Text.isBlank = blanks ∧
      (blanks ++ c :: cs).dropWhile Text.isBlank = c :: cs := by
  rw [List.takeWhile_append_of_pos h, List.dropWhile_append_of_pos h, List.takeWhile_cons,
    List.dropWhile_cons, visible]
  exact ⟨List.append_nil _, rfl⟩

/-- Of nothing but blanks there is only the end. -/
theorem scanFrom_blanks (position : Nat) (h : Blanks blanks) :
    scanFrom position blanks = .ok [⟨.eof, position + blanks.length⟩] := by
  have taken : blanks.takeWhile Text.isBlank = blanks := List.takeWhile_eq_self_iff.mpr h
  have dropped : blanks.dropWhile Text.isBlank = [] := List.dropWhile_eq_nil_iff.mpr h
  rw [scanFrom]
  split
  · rw [taken]
  · next hcs => cases dropped.symm.trans hcs

/-- Behind the blanks a token is read, and the scan goes on behind it. -/
theorem scanFrom_visible (position : Nat) (h : Blanks blanks) (visible : Text.isBlank c = false)
    (cs : List Char) :
    scanFrom position (blanks ++ c :: cs) =
      match readToken c cs with
      | .error fault => .error ⟨position + blanks.length, fault⟩
      | .ok (token, rest) =>
        (scanFrom (position + blanks.length + 1 + (cs.length - rest.length)) rest).map
          (⟨token, position + blanks.length⟩ :: ·) := by
  obtain ⟨taken, dropped⟩ := span_blanks h visible cs
  rw [scanFrom]
  split
  · next hcs => cases dropped.symm.trans hcs
  · next hcs =>
    cases dropped.symm.trans hcs
    rw [taken]
    split
    · next hr => rw [hr]
    · next hr => rw [hr]

/-- A text that has no token in front fails there, at the position behind the blanks. -/
theorem scanFrom_fault (position : Nat) (h : Blanks blanks) (visible : Text.isBlank c = false)
    (fails : readToken c cs = .error fault) :
    scanFrom position (blanks ++ c :: cs) = .error ⟨position + blanks.length, fault⟩ := by
  rw [scanFrom_visible position h visible, fails]

/-- A lexeme is as long as what it leaves of the text is shorter. -/
theorem behind_lexeme (start : Nat) (lexeme rest : List Char) :
    start + 1 + ((lexeme ++ rest).length - rest.length) = start + (lexeme.length + 1) := by
  rw [List.length_append]
  omega

/-- The step of the scanner: blanks are skipped, a token takes its characters, and the rest is
scanned from the position behind it. -/
theorem scanFrom_lexeme (position : Nat) (h : Blanks blanks) (visible : Text.isBlank c = false)
    (takes : Takes c (lexeme ++ rest) t rest) :
    scanFrom position (blanks ++ c :: (lexeme ++ rest)) =
      (scanFrom (position + blanks.length + (lexeme.length + 1)) rest).map
        (⟨t, position + blanks.length⟩ :: ·) := by
  rw [scanFrom_visible position h visible, takes.readToken, ← behind_lexeme _ lexeme rest]

/-- A text is blanks to its end, or blanks in front of a fault, or blanks and a lexeme in front of a
shorter text. Proofs about the scanner are by induction along this, and none of them looks at
positions in a text again. -/
@[elab_as_elim]
theorem scanFrom_induct {P : Nat → List Char → Prop}
    (blanks : ∀ position blanks, Blanks blanks → P position blanks)
    (fault : ∀ position blanks c cs fault, Blanks blanks → Text.isBlank c = false →
      readToken c cs = .error fault → P position (blanks ++ c :: cs))
    (lexeme : ∀ position blanks c lexeme rest t, Blanks blanks → Text.isBlank c = false →
      Takes c (lexeme ++ rest) t rest → P (position + blanks.length + (lexeme.length + 1)) rest →
      P position (blanks ++ c :: (lexeme ++ rest)))
    (position : Nat) (cs : List Char) : P position cs := by
  -- by the length: a lexeme takes at least its first character
  induction hn : cs.length using Nat.strongRecOn generalizing position cs with
  | ind n ih =>
    have blank : Blanks (cs.takeWhile Text.isBlank) := fun c hc => List.mem_takeWhile_imp hc
    have split := List.takeWhile_append_dropWhile (p := Text.isBlank) (l := cs)
    have head := List.head?_dropWhile_not Text.isBlank cs
    generalize cs.takeWhile Text.isBlank = front at blank split
    generalize cs.dropWhile Text.isBlank = behind at split head
    subst split
    cases behind with
    | nil =>
      rw [List.append_nil]
      exact blanks position front blank
    | cons c rest =>
      cases read : readToken c rest with
      | error fault' => exact fault position front c rest fault' blank head read
      | ok taken =>
        have takes := readToken_eq_ok.mp read
        obtain ⟨characters, split, -⟩ := takes.lexeme
        have shorter : taken.2.length < n := by
          rw [← hn, split]
          simp only [List.length_append, List.length_cons]
          omega
        rw [split] at takes ⊢
        exact lexeme position front c characters taken.2 taken.1 blank head takes
          (ih _ shorter _ _ rfl)

/-- A fault of the scanner is within the text: there is a character that no token starts with, or
one that starts a token without an end. -/
theorem scanFrom_error_lt {position : Nat} {cs : List Char} {e : SyntaxError}
    (h : scanFrom position cs = .error e) : e.position < position + cs.length := by
  induction position, cs using scanFrom_induct with
  | blanks position blanks blank =>
    rw [scanFrom_blanks position blank] at h
    cases h
  | fault position blanks c cs fault blank visible fails =>
    rw [scanFrom_fault position blank visible fails] at h
    cases h
    simp only [List.length_append, List.length_cons]
    omega
  | lexeme position blanks c lexeme rest t blank visible takes ih =>
    rw [scanFrom_lexeme position blank visible takes, map_eq_error] at h
    have behind := ih h
    simp only [List.length_append, List.length_cons]
    omega

end EntityQuery.Filter
