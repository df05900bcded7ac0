import EntityQuery.Filter.Parse
import EntityQuery.Proofs.Filter.Lexeme
import EntityQuery.Proofs.Filter.Tree

/-!
# Well-formed filter trees

A tree is well formed when it could have been written: its selectors are words, its operators are
of the shapes that the scanner knows, every comparison has an argument and every junction at least
two children. Arguments are any texts at all.

Every tree that is parsed is well formed (`parse_wellFormed`). The scanner makes words and operators
of the right shape, ends its tokens with one end of the filter (`scanFrom_tokens`), and the machine
keeps all its open groups well formed token by token (`Parser.Invariant`).
-/

namespace EntityQuery.Filter

/-- The text of a comparison operator: letters between equals signs, of which there may be none, or
one of five short operators. -/
def IsOperator (text : String) : Prop :=
  text ∈ ["!=", "<", "<=", ">", ">="] ∨
    ∃ letters : List Char, (∀ c ∈ letters, isOperatorLetter c) ∧
      text.toList = '=' :: (letters ++ ['='])

/-- A text that is a word: it is not empty, and none of its characters is reserved. -/
def IsWord (text : String) : Prop := text.toList ≠ [] ∧ ∀ c ∈ text.toList, isReserved c = false

instance (text : String) : Decidable (IsWord text) :=
  decidable_of_iff (text.toList ≠ [] ∧ text.toList.all (!isReserved ·))
    (and_congr_right fun _ => by simp only [List.all_eq_true, Bool.not_eq_true'])

/-- A tree that could have been written. -/
inductive Node.WellFormed : Node → Prop
  | comparison {selector operator : String} {arguments : List String} (word : IsWord selector)
    (shape : IsOperator operator) (nonempty : arguments ≠ []) :
    WellFormed (.comparison selector operator arguments)
  | logical {junction : Junction} {children : List Node} (two : 2 ≤ children.length)
    (each : ∀ n ∈ children, WellFormed n) : WellFormed (.logical junction children)

/-- Well-formed trees under one junction make a well-formed tree, and a single one is itself. -/
theorem Node.join_wellFormed {junction : Junction} {ns : List Node} (nonempty : ns ≠ [])
    (each : ∀ n ∈ ns, n.WellFormed) : (Node.join junction ns).WellFormed := by
  unfold Node.join
  split
  · next n => exact each n (List.mem_singleton_self n)
  · next single =>
    refine .logical ?_ each
    match ns, nonempty, single with
    | [n], _, single => exact absurd rfl (single n)
    | _ :: _ :: _, _, _ => exact Nat.le_add_left 2 _

/-! ## Tokens -/

/-- What the scanner makes sure of: a word is one, and so is an operator. -/
def Token.Shaped : Token → Prop
  | .word text => IsWord text
  | .operator text => IsOperator text
  | _ => True

theorem readNamedOperator_shaped {cs rest : List Char} {t : Token}
    (h : readNamedOperator cs = .ok (t, rest)) : t.Shaped ∧ t ≠ .eof := by
  unfold readNamedOperator at h
  dsimp only at h
  split at h
  · cases h
    refine ⟨.inr ⟨cs.takeWhile isOperatorLetter, fun c hc => ?_, ?_⟩, by rintro ⟨⟩⟩
    · exact List.mem_takeWhile_imp hc
    · rw [String.toList_ofList, List.cons_append]
  · cases h

theorem readAngle_shaped {c : Char} (hc : c = '<' ∨ c = '>') (cs : List Char) :
    (readAngle c cs).1.Shaped ∧ (readAngle c cs).1 ≠ .eof := by
  unfold readAngle
  split
  · refine ⟨.inl ?_, by rintro ⟨⟩⟩
    rcases hc with rfl | rfl <;> decide
  · refine ⟨.inl ?_, by rintro ⟨⟩⟩
    rcases hc with rfl | rfl <;> decide

/-- A word that starts with a character that is not reserved goes on to the next reserved one. -/
theorem isWord_run {c : Char} (hc : isReserved c = false) (cs : List Char) :
    IsWord (String.ofList (c :: cs.takeWhile (!isReserved ·))) := by
  rw [IsWord, String.toList_ofList]
  refine ⟨List.cons_ne_nil _ _, fun d hd => ?_⟩
  rcases List.mem_cons.mp hd with rfl | hd
  · exact hc
  · have free := List.mem_takeWhile_imp hd
    rwa [Bool.not_eq_true'] at free

/-- Every token that is read has the shape of its kind: words are words, and operators one of the
forms that the scanner knows. -/
theorem readToken_shaped {c : Char} {cs rest : List Char} {t : Token}
    (h : readToken c cs = .ok (t, rest)) : t.Shaped ∧ t ≠ .eof := by
  cases readToken_eq_ok.mp h with
  | mark cs mark =>
    have each : ∀ m ∈ marks, m.2.Shaped ∧ m.2 ≠ .eof := by simp [marks, Token.Shaped]
    exact each _ mark
  | named read => exact readNamedOperator_shaped read
  | angle angle read =>
    have shaped := readAngle_shaped angle cs
    rwa [read] at shaped
  | unequal cs => exact ⟨.inl (by decide), by rintro ⟨⟩⟩
  | quoted quote read => exact ⟨trivial, by rintro ⟨⟩⟩
  | word cs free => exact ⟨isWord_run free cs, by rintro ⟨⟩⟩

/-- The tokens of a text are shaped, and the end of the filter is the last of them and no other. -/
theorem scanFrom_tokens {position : Nat} {cs : List Char} {tokens : List PlacedToken}
    (h : scanFrom position cs = .ok tokens) :
    ∃ front last, tokens = front ++ [last] ∧ last.token = .eof ∧
      ∀ t ∈ front, t.token.Shaped ∧ t.token ≠ .eof := by
  induction position, cs using scanFrom_induct generalizing tokens with
  | blanks position blanks blank =>
    rw [scanFrom_blanks position blank] at h
    cases h
    exact ⟨[], _, rfl, rfl, nofun⟩
  | fault position blanks c cs fault blank visible fails =>
    rw [scanFrom_fault position blank visible fails] at h
    cases h
  | lexeme position blanks c lexeme rest t blank visible takes ih =>
    rw [scanFrom_lexeme position blank visible takes] at h
    obtain ⟨behind, hbehind, rfl⟩ := map_eq_ok.mp h
    obtain ⟨front, last, rfl, ending, each⟩ := ih hbehind
    exact ⟨_ :: front, last, rfl, ending,
      List.forall_mem_cons.mpr ⟨readToken_shaped takes.readToken, each⟩⟩

/-! ## The machine -/

/-- All parts of an open group are well formed. -/
structure Group.Sound (g : Group) : Prop where
  disjuncts : ∀ n ∈ g.disjuncts, n.WellFormed
  conjuncts : ∀ n ∈ g.conjuncts, n.WellFormed

namespace Group

theorem empty_sound : Group.empty.Sound := ⟨fun _ hn => (by cases hn), fun _ hn => (by cases hn)⟩

variable {g : Group}

/-- A well-formed constraint keeps a group sound. -/
theorem Sound.addConstraint (h : g.Sound) {n : Node} (hn : n.WellFormed) :
    (g.addConstraint n).Sound := by
  refine ⟨h.disjuncts, fun m hm => ?_⟩
  rcases List.mem_append.mp hm with hm | hm
  · exact h.conjuncts m hm
  · exact List.mem_singleton.mp hm ▸ hn

/-- Behind a constraint the open conjunction is not empty. -/
theorem addConstraint_conjuncts_ne_nil (g : Group) (n : Node) :
    (g.addConstraint n).conjuncts ≠ [] :=
  List.append_ne_nil_of_right_ne_nil _ (List.cons_ne_nil _ _)

/-- A conjunction that is not empty can be closed. -/
theorem Sound.endConjunction (h : g.Sound) (nonempty : g.conjuncts ≠ []) :
    g.endConjunction.Sound := by
  refine ⟨fun m hm => ?_, fun m hm => by cases hm⟩
  rcases List.mem_append.mp hm with hm | hm
  · exact h.disjuncts m hm
  · exact List.mem_singleton.mp hm ▸ Node.join_wellFormed nonempty h.conjuncts

/-- A sound group with an open conjunction makes a well-formed tree, which has no junction with
fewer than two children. -/
theorem Sound.node (h : g.Sound) (nonempty : g.conjuncts ≠ []) : g.node.WellFormed :=
  Node.join_wellFormed (List.append_ne_nil_of_right_ne_nil _ (List.cons_ne_nil _ _))
    (h.endConjunction nonempty).disjuncts

end Group

/-- What holds of a phase: what it carries is shaped, and behind a constraint the current
conjunction is not empty. -/
def Phase.Holds (g : Group) : Phase → Prop
  | .constraint => True
  | .operator selector => IsWord selector
  | .argument selector symbol | .listArgument selector symbol _ =>
    IsWord selector ∧ IsOperator symbol
  | .listEnd selector symbol arguments => IsWord selector ∧ IsOperator symbol ∧ arguments ≠ []
  | .afterConstraint | .done => g.conjuncts ≠ []

namespace Parser

variable {p q : Parser} {t : Token}

/-- What holds of the machine behind each token. -/
structure Invariant (p : Parser) : Prop where
  group : p.group.Sound
  outer : ∀ g ∈ p.outer, g.Sound
  phase : p.phase.Holds p.group

theorem start_invariant : start.Invariant :=
  ⟨Group.empty_sound, fun _ hg => (by cases hg), trivial⟩

/-- A comparison of well-shaped tokens keeps the invariant. -/
theorem Invariant.addComparison (h : p.Invariant) {selector operator : String}
    {arguments : List String} (word : IsWord selector) (shape : IsOperator operator)
    (nonempty : arguments ≠ []) : (p.addComparison selector operator arguments).Invariant :=
  ⟨h.group.addConstraint (.comparison word shape nonempty), h.outer,
    Group.addConstraint_conjuncts_ne_nil _ _⟩

/-- So does every token that may stand behind a constraint. Closing a parenthesis makes a constraint
of the inner group. -/
theorem Invariant.stepAfterConstraint (h : p.Invariant) (nonempty : p.group.conjuncts ≠ [])
    (hs : p.stepAfterConstraint t = .ok q) : q.Invariant := by
  unfold Parser.stepAfterConstraint at hs
  split at hs
  · cases hs
    exact ⟨h.group, h.outer, trivial⟩
  split at hs
  · cases hs
    exact ⟨h.group.endConjunction nonempty, h.outer, trivial⟩
  split at hs
  · split at hs
    · cases hs
      exact ⟨h.group, h.outer, nonempty⟩
    · cases hs
  · next around outer houter =>
    have sound := h.outer
    rw [houter] at sound
    split at hs
    · cases hs
      exact ⟨(sound around List.mem_cons_self).addConstraint (h.group.node nonempty),
        fun g hg => sound g (List.mem_cons_of_mem _ hg), Group.addConstraint_conjuncts_ne_nil _ _⟩
    · cases hs

/-- One token preserves the invariant: what the groups hold is well-formed, and what the current
phase has read so far can become part of a comparison. The scanner gives tokens of a proper shape
only, which is why it is asked of the token. -/
theorem Invariant.step (h : p.Invariant) (shaped : t.Shaped) (hs : p.step t = .ok q) :
    q.Invariant := by
  have holds := h.phase
  unfold Parser.step at hs
  split at hs
  · split at hs
    · cases hs
      -- a parenthesis puts the group on top of the outer ones
      refine ⟨Group.empty_sound, fun g hg => ?_, trivial⟩
      rcases List.mem_cons.mp hg with rfl | hg
      · exact h.group
      · exact h.outer g hg
    · cases hs
      exact ⟨h.group, h.outer, shaped⟩
    · cases hs
  · next selector hphase =>
    rw [hphase] at holds
    split at hs
    · cases hs
      exact ⟨h.group, h.outer, holds, shaped⟩
    · cases hs
  · next selector symbol hphase =>
    rw [hphase] at holds
    split at hs
    · cases hs
      exact ⟨h.group, h.outer, holds⟩
    · cases hs
      exact h.addComparison holds.1 holds.2 (List.cons_ne_nil _ _)
    · cases hs
      exact h.addComparison holds.1 holds.2 (List.cons_ne_nil _ _)
    · cases hs
  · next selector symbol arguments hphase =>
    rw [hphase] at holds
    have behind : ∀ text, arguments ++ [text] ≠ [] := fun _ =>
      List.append_ne_nil_of_right_ne_nil _ (List.cons_ne_nil _ _)
    split at hs
    · cases hs
      exact ⟨h.group, h.outer, holds.1, holds.2, behind _⟩
    · cases hs
      exact ⟨h.group, h.outer, holds.1, holds.2, behind _⟩
    · cases hs
  · next selector symbol arguments hphase =>
    rw [hphase] at holds
    split at hs
    · cases hs
      exact ⟨h.group, h.outer, holds.1, holds.2.1⟩
    · cases hs
      exact h.addComparison holds.1 holds.2.1 holds.2.2
    · cases hs
  · next hphase =>
    rw [hphase] at holds
    exact h.stepAfterConstraint holds hs
  · cases hs

/-- The end of the filter is read behind a constraint only, and when all parentheses are closed. -/
theorem step_eof (hs : p.step .eof = .ok q) : q.phase = .done := by
  unfold Parser.step at hs
  split at hs
  · cases hs
  · cases hs
  · cases hs
  · cases hs
  · cases hs
  · unfold Parser.stepAfterConstraint at hs
    split at hs
    · next isAnd => cases isAnd
    split at hs
    · next isOr => cases isOr
    split at hs
    · cases hs
      rfl
    · cases hs
  · cases hs

/-- Tokens are read one after the other, so a run can be cut anywhere. -/
theorem run_append_eq_ok {front behind : List PlacedToken} :
    p.run (front ++ behind) = .ok q ↔ ∃ m, p.run front = .ok m ∧ m.run behind = .ok q := by
  induction front generalizing p with
  | nil =>
    constructor
    · intro h
      exact ⟨p, rfl, h⟩
    · rintro ⟨m, hm, h⟩
      cases hm
      exact h
  | cons t ts ih =>
    rw [List.cons_append, run, run]
    cases p.step t.token with
    | error fault => exact iff_of_false (by rintro ⟨⟩) (by rintro ⟨m, ⟨⟩, -⟩)
    | ok next => exact ih

theorem run_singleton_eq_ok {t : PlacedToken} (h : p.run [t] = .ok q) : p.step t.token = .ok q := by
  rw [run] at h
  split at h
  · next next hs =>
    cases h
    exact hs
  · cases h

/-- A run over shaped tokens preserves the invariant. -/
theorem Invariant.run (h : p.Invariant) {tokens : List PlacedToken}
    (shaped : ∀ t ∈ tokens, t.token.Shaped) (hr : p.run tokens = .ok q) : q.Invariant := by
  induction tokens generalizing p with
  | nil =>
    cases hr
    exact h
  | cons t ts ih =>
    rw [Parser.run] at hr
    split at hr
    · next next hs =>
      exact ih (h.step (shaped t List.mem_cons_self) hs)
        (fun u hu => shaped u (List.mem_cons_of_mem _ hu)) hr
    · cases hr

end Parser

/-- Every tree that is parsed is well formed. -/
theorem parse_wellFormed {input : String} {n : Node} (h : parse input = .ok n) :
    n.WellFormed := by
  obtain ⟨tokens, scanned, h⟩ := bind_eq_ok.mp h
  obtain ⟨q, hq, rfl⟩ := map_eq_ok.mp h
  obtain ⟨front, last, rfl, hlast, each⟩ := scanFrom_tokens scanned
  obtain ⟨m, hm, hend⟩ := Parser.run_append_eq_ok.mp hq
  have last_step := Parser.run_singleton_eq_ok hend
  rw [hlast] at last_step
  have invariant : q.Invariant :=
    (Parser.start_invariant.run (fun t ht => (each t ht).1) hm).step (t := .eof) trivial last_step
  have nonempty := invariant.phase
  rw [Parser.step_eof last_step] at nonempty
  exact invariant.group.node nonempty

end EntityQuery.Filter
