import EntityQuery.Filter.Token

/-!
# From text to tokens

`scan` cuts a filter into tokens, from the left and each as long as it can be, and ends them with
the end of the filter. A token is found by its first character, and taking it always shortens the
text, which is why the cutting ends.
-/

namespace EntityQuery.Filter

/-- Whether a character is an ASCII letter, as the name of an operator is made of. -/
def isOperatorLetter (c : Char) : Bool := c.isAlpha

/-- Reads a quoted argument behind its opening quote. A backslash makes the next character stand
for itself. `none` if the closing quote is missing. -/
def readQuoted (quote : Char) : List Char → Option (List Char × List Char)
  | [] => none
  | c :: cs =>
    if c = quote then some ([], cs)
    else if c = '\\' then
      match cs with
      | [] => none
      | e :: rest => (readQuoted quote rest).map fun (text, rest) => (e :: text, rest)
    else (readQuoted quote cs).map fun (text, rest) => (c :: text, rest)

/-- Reads an operator behind the equals sign that it starts with. -/
def readNamedOperator (cs : List Char) : Except SyntaxFault (Token × List Char) :=
  let letters := cs.takeWhile isOperatorLetter
  match cs.dropWhile isOperatorLetter with
  | '=' :: rest => .ok (.operator (String.ofList ('=' :: letters ++ ['='])), rest)
  | _ => .error (.unterminatedOperator (String.ofList ('=' :: letters)))

/-- Reads an operator of one character that an equals sign may follow. -/
def readAngle (c : Char) : List Char → Token × List Char
  | '=' :: rest => (.operator (String.ofList [c, '=']), rest)
  | rest => (.operator (String.ofList [c]), rest)

/-- Reads the token that starts with `c`, and leaves the rest of the text. -/
def readToken (c : Char) (cs : List Char) : Except SyntaxFault (Token × List Char) :=
  if c = '(' then .ok (.leftParen, cs)
  else if c = ')' then .ok (.rightParen, cs)
  else if c = ';' then .ok (.semicolon, cs)
  else if c = ',' then .ok (.comma, cs)
  else if c = '=' then readNamedOperator cs
  else if c = '<' ∨ c = '>' then .ok (readAngle c cs)
  else if c = '!' then
    match cs with
    | '=' :: rest => .ok (.operator "!=", rest)
    | _ => .error .loneExclamation
  else if c = '\'' ∨ c = '"' then
    match readQuoted c cs with
    | some (text, rest) => .ok (.quoted (String.ofList text), rest)
    | none => .error .unterminatedQuote
  else if isReserved c then .error (.unexpectedCharacter c)
  else
    .ok (.word (String.ofList (c :: cs.takeWhile (!isReserved ·))), cs.dropWhile (!isReserved ·))

theorem length_dropWhile_le {α : Type} (p : α → Bool) (l : List α) :
    (l.dropWhile p).length ≤ l.length :=
  (List.dropWhile_suffix p).length_le

/-- What is behind the closing quote is no longer than what was behind the opening one. -/
theorem readQuoted_length {quote : Char} :
    {cs text rest : List Char} → readQuoted quote cs = some (text, rest) → rest.length ≤ cs.length
  | [], _, _, h => by simp [readQuoted] at h
  | c :: cs, text, rest, h => by
    unfold readQuoted at h
    split at h
    · simp only [Option.some.injEq, Prod.mk.injEq] at h
      simp [← h.2]
    split at h
    · cases cs with
      | nil => simp at h
      | cons e cs =>
        obtain ⟨⟨t, r⟩, hr, heq⟩ := Option.map_eq_some_iff.1 h
        simp only [Prod.mk.injEq] at heq
        have := readQuoted_length hr
        simp only [← heq.2, List.length_cons]
        omega
    · obtain ⟨⟨t, r⟩, hr, heq⟩ := Option.map_eq_some_iff.1 h
      simp only [Prod.mk.injEq] at heq
      have := readQuoted_length hr
      simp only [← heq.2, List.length_cons]
      omega

/-- A token takes its first character and leaves no more than what is behind it. -/
theorem readToken_length {c : Char} {cs rest : List Char} {t : Token}
    (h : readToken c cs = .ok (t, rest)) : rest.length ≤ cs.length := by
  unfold readToken at h
  split at h
  · simp_all
  split at h
  · simp_all
  split at h
  · simp_all
  split at h
  · simp_all
  split at h
  · unfold readNamedOperator at h
    have hle := length_dropWhile_le isOperatorLetter cs
    simp only at h
    split at h
    · next r hr =>
      rw [hr] at hle
      simp only [Except.ok.injEq, Prod.mk.injEq] at h
      rw [← h.2]
      simp only [List.length_cons] at hle
      omega
    · simp at h
  split at h
  · unfold readAngle at h
    split at h
    · simp only [Except.ok.injEq, Prod.mk.injEq] at h
      simp [← h.2]
    · simp only [Except.ok.injEq, Prod.mk.injEq] at h
      simp [← h.2]
  split at h
  · split at h
    · simp only [Except.ok.injEq, Prod.mk.injEq] at h
      simp [← h.2]
    · simp at h
  split at h
  · split at h
    · next hq =>
      simp only [Except.ok.injEq, Prod.mk.injEq] at h
      exact h.2 ▸ readQuoted_length hq
    · simp at h
  split at h
  · simp at h
  · simp only [Except.ok.injEq, Prod.mk.injEq] at h
    exact h.2 ▸ length_dropWhile_le _ _

/-- Cuts a text that starts `position` characters into the filter. -/
def scanFrom (position : Nat) (cs : List Char) : Except SyntaxError (List PlacedToken) :=
  let blanks := cs.takeWhile Text.isBlank
  let start := position + blanks.length
  match _hcs : cs.dropWhile Text.isBlank with
  | [] => .ok [⟨.eof, start⟩]
  | c :: rest =>
    match hr : readToken c rest with
    | .error fault => .error ⟨start, fault⟩
    | .ok (token, remaining) =>
      (scanFrom (start + 1 + (rest.length - remaining.length)) remaining).map
        (⟨token, start⟩ :: ·)
termination_by cs.length
decreasing_by
  have h1 := readToken_length hr
  have h2 := length_dropWhile_le Text.isBlank cs
  rw [_hcs] at h2
  simp only [List.length_cons] at h2
  omega

/-- The tokens of a filter and where they start; the last one is its end. -/
def scan (input : String) : Except SyntaxError (List PlacedToken) := scanFrom 0 input.toList

end EntityQuery.Filter
