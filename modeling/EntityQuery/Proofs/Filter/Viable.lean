import EntityQuery.Proofs.Filter.RoundTrip
import EntityQuery.Proofs.Filter.Tiling

/-!
# Where a fault is reported

A fault of the grammar is reported at the first token with which no filter can go on. The tokens in
front of it are viable: some tokens can follow with which they are parsed. With the token itself
they are not.

The machine refuses a token only in a state from which it could have gone on: it can complete the
constraint that it is in (`Phase.completion`), close all groups that are open (`reads_closing`) and
read the end of the filter. So a run that has not read the end of the filter is always the start of
one that is parsed (`exists_completion`), and one that stops at a token is not, for what the machine
does with a token is settled by the tokens in front.
-/

namespace EntityQuery.Filter

/-- A list of tokens that the parser accepts: the end of the filter is the last of them and no
other, and they have a tree. -/
def Accepted (tokens : List PlacedToken) : Prop :=
  (∃ front last, tokens = front ++ [last] ∧ last.token = .eof ∧ ∀ t ∈ front, t.token ≠ .eof) ∧
    ∃ n, parseTokens tokens = .ok n

/-- Tokens that can be gone on with to a list that is accepted. -/
def Viable (tokens : List PlacedToken) : Prop := ∃ more, Accepted (tokens ++ more)

/-- Tokens that bring the machine behind the constraint that it is in. -/
def Phase.completion : Phase → List Token
  | .constraint => [.word "x", .operator "==", .word "x"]
  | .operator _ => [.operator "==", .word "x"]
  | .argument .. => [.word "x"]
  | .listArgument .. => [.word "x", .rightParen]
  | .listEnd .. => [.rightParen]
  | .afterConstraint | .done => []

/-- A filter is completed without the token for the end. -/
theorem Phase.eof_not_mem_completion (phase : Phase) : Token.eof ∉ phase.completion := by
  cases phase <;> simp [completion]

namespace Parser

variable {p q : Parser} {t : Token} {tokens : List PlacedToken}

/-- Wherever the machine is in a constraint, some tokens complete it. They are the same for all
selectors and operators. -/
theorem reads_completion (unfinished : p.phase ≠ .done) :
    ∃ g, p.Reads p.phase.completion ⟨g, p.outer, .afterConstraint⟩ := by
  obtain ⟨g, outer, phase⟩ := p
  cases phase with
  | constraint | operator | argument | listArgument | listEnd | afterConstraint => exact ⟨_, rfl⟩
  | done => exact absurd rfl unfinished

/-- All open groups can be closed behind a constraint. -/
theorem reads_closing (g : Group) (outer : List Group) :
    ∃ g', (Parser.mk g outer .afterConstraint).Reads (List.replicate outer.length .rightParen)
      ⟨g', [], .afterConstraint⟩ := by
  induction outer generalizing g with
  | nil => exact ⟨g, reads_nil _⟩
  | cons around outer ih =>
    obtain ⟨g', closed⟩ := ih (around.addConstraint g.node)
    exact ⟨g', reads_cons rfl closed⟩

/-- Whatever has been read, a filter can go on with it, unless it has ended. -/
theorem exists_completion (unfinished : p.phase ≠ .done) :
    ∃ ts q, Token.eof ∉ ts ∧ p.Reads (ts ++ [.eof]) q := by
  obtain ⟨g, completed⟩ := reads_completion unfinished
  obtain ⟨g', closed⟩ := reads_closing g p.outer
  refine ⟨p.phase.completion ++ List.replicate p.outer.length .rightParen, ⟨g', [], .done⟩, ?_,
    reads_append (reads_append completed closed) (reads_cons rfl (reads_nil _))⟩
  rw [List.mem_append, not_or]
  exact ⟨p.phase.eof_not_mem_completion, fun closing => nomatch List.eq_of_mem_replicate closing⟩

/-- Only the end of the filter ends the machine. A filter that can be gone on with has therefore not
been ended before. -/
theorem step_done (hs : p.step t = .ok q) (ended : q.phase = .done) : t = .eof := by
  obtain ⟨g, outer, phase⟩ := p
  cases phase with
  | constraint | operator | argument | listArgument | listEnd =>
    cases t <;> cases hs <;> cases ended
  | afterConstraint =>
    replace hs : (Parser.mk g outer .afterConstraint).stepAfterConstraint t = .ok q := hs
    unfold Parser.stepAfterConstraint at hs
    split at hs
    · cases hs
      cases ended
    split at hs
    · cases hs
      cases ended
    split at hs
    · split at hs
      · assumption
      · cases hs
    · split at hs
      · cases hs
        cases ended
      · cases hs
  | done => cases hs

/-- Only the token for the end finishes a filter. -/
theorem run_unfinished (unfinished : p.phase ≠ .done) (hr : p.run tokens = .ok q)
    (inner : ∀ t ∈ tokens, t.token ≠ .eof) : q.phase ≠ .done := by
  induction tokens generalizing p with
  | nil =>
    cases hr
    exact unfinished
  | cons t ts ih =>
    obtain ⟨first, further⟩ := List.forall_mem_cons.mp inner
    rw [Parser.run] at hr
    split at hr
    · next next hs => exact ih (fun ended => first (step_done hs ended)) hr further
    · cases hr

/-- A run that fails has read what is in front of the token that it fails at. -/
theorem run_eq_error {e : SyntaxError} (hr : p.run tokens = .error e) :
    ∃ front t behind q, tokens = front ++ t :: behind ∧ p.run front = .ok q ∧
      q.step t.token = .error e.fault ∧ t.position = e.position := by
  induction tokens generalizing p with
  | nil => cases hr
  | cons t ts ih =>
    rw [Parser.run] at hr
    split at hr
    · next next hs =>
      obtain ⟨front, u, behind, q, rfl, read, refused, place⟩ := ih hr
      refine ⟨t :: front, u, behind, q, rfl, ?_, refused, place⟩
      rw [Parser.run, hs]
      exact read
    · next fault hs =>
      cases hr
      exact ⟨[], t, ts, p, rfl, rfl, hs, rfl⟩

end Parser

/-- What the machine has read is viable, if the end of the filter was not part of it. -/
theorem viable_of_run {tokens : List PlacedToken} {p : Parser}
    (read : Parser.start.run tokens = .ok p) (inner : ∀ t ∈ tokens, t.token ≠ .eof) :
    Viable tokens := by
  have unread : Parser.start.phase ≠ .done := by rintro ⟨⟩
  have unfinished := Parser.run_unfinished unread read inner
  obtain ⟨ts, q, hts, completed⟩ := Parser.exists_completion unfinished
  let more : List PlacedToken := ts.map (⟨·, 0⟩)
  let last : PlacedToken := ⟨.eof, 0⟩
  have placed : (more ++ [last]).map (·.token) = ts ++ [.eof] := by
    simp [more, last, Function.comp_def]
  rw [← placed] at completed
  have whole := Parser.run_append_eq_ok.mpr ⟨p, read, completed.run⟩
  refine ⟨more ++ [last], ⟨tokens ++ more, last, (List.append_assoc ..).symm, rfl, ?_⟩,
    q.group.node, map_eq_ok.mpr ⟨q, whole, rfl⟩⟩
  refine List.forall_mem_append.mpr ⟨inner, List.forall_mem_map.mpr fun t ht => ?_⟩
  rintro rfl
  exact hts ht

/-- With a token that the machine refuses nothing is viable. -/
theorem not_viable_of_refused {front : List PlacedToken} {t : PlacedToken} {p : Parser}
    {fault : SyntaxFault} (read : Parser.start.run front = .ok p)
    (refused : p.step t.token = .error fault) : ¬Viable (front ++ [t]) := by
  rintro ⟨more, -, n, parsed⟩
  obtain ⟨q, hq, -⟩ := map_eq_ok.mp parsed
  obtain ⟨p', read', -⟩ := Parser.run_append_eq_ok.mp hq
  obtain ⟨p'', read'', last⟩ := Parser.run_append_eq_ok.mp read'
  cases read.symm.trans read''
  cases refused.symm.trans (Parser.run_singleton_eq_ok last)

/-- A fault lies within the text, and one of the grammar at the first token that is impossible: the
tokens in front of it are viable, and with it they are not. No other token stands there. -/
theorem parse_fault_first {input : String} {e : SyntaxError} (rejected : parse input = .error e) :
    e.position ≤ input.length ∧
    ∀ tokens, scan input = .ok tokens → ∃ k,
      (∀ i t, tokens[i]? = some t → (t.position = e.position ↔ i = k)) ∧ k < tokens.length ∧
      Viable (tokens.take k) ∧ ¬Viable (tokens.take (k + 1)) := by
  cases scanned : scan input with
  | error fault =>
    rw [parse, scanned] at rejected
    cases rejected
    refine ⟨?_, nofun⟩
    have within := scanFrom_error_lt scanned
    rw [Nat.zero_add, String.length_toList] at within
    exact Nat.le_of_lt within
  | ok tokens =>
    rw [parse, scanned] at rejected
    obtain ⟨front, t, behind, p, rfl, read, refused, place⟩ :=
      Parser.run_eq_error (map_eq_error.mp rejected)
    have tiles := tiling_of_scan scanned
    refine ⟨place ▸ tiles.position_le t (List.mem_append_right _ List.mem_cons_self), ?_⟩
    rintro _ ⟨⟩
    -- the fault is at the token that is not read, behind those that are
    have before : (front ++ t :: behind).take front.length = front := List.take_left
    have through : (front ++ t :: behind).take (front.length + 1) = front ++ [t] := by
      rw [← List.singleton_append, ← List.append_assoc]
      exact List.take_left' List.length_append
    refine ⟨front.length, fun i u hu => ?_, by simp, ?_, ?_⟩
    · rw [← place]
      exact tiles.position_eq_iff hu
    · rw [before]
      exact viable_of_run read tiles.ne_eof
    · rw [through]
      exact not_viable_of_refused read refused

/-- A list that is closed where its next argument should be. -/
theorem parse_fault_first_list :
    parse "a==(b,);c==1" = .error ⟨6, .expectedArgument .rightParen⟩ ∧
      Viable [⟨.word "a", 0⟩, ⟨.operator "==", 1⟩, ⟨.leftParen, 3⟩, ⟨.word "b", 4⟩, ⟨.comma, 5⟩] ∧
      ¬Viable [⟨.word "a", 0⟩, ⟨.operator "==", 1⟩, ⟨.leftParen, 3⟩, ⟨.word "b", 4⟩, ⟨.comma, 5⟩,
        ⟨.rightParen, 6⟩] := by
  have rejected : parse "a==(b,);c==1" = .error ⟨6, .expectedArgument .rightParen⟩ := by
    decide +kernel
  have scanned : scan "a==(b,);c==1" = .ok [⟨.word "a", 0⟩, ⟨.operator "==", 1⟩, ⟨.leftParen, 3⟩,
      ⟨.word "b", 4⟩, ⟨.comma, 5⟩, ⟨.rightParen, 6⟩, ⟨.semicolon, 7⟩, ⟨.word "c", 8⟩,
      ⟨.operator "==", 9⟩, ⟨.word "1", 11⟩, ⟨.eof, 12⟩] := by decide +kernel
  obtain ⟨k, place, -, before, through⟩ := (parse_fault_first rejected).2 _ scanned
  have fifth : 5 = k := (place 5 ⟨.rightParen, 6⟩ rfl).mp rfl
  subst fifth
  exact ⟨rejected, before, through⟩

end EntityQuery.Filter
