import EntityQuery.Proofs.Filter.Grammar
import EntityQuery.Proofs.Filter.RoundTrip

/-!
# The machine decides the grammar

A list of tokens that ends with the end of the filter is parsed exactly when the tokens before the
end have a derivation, and then into the tree of that derivation (`parseTokens_eq_ok_iff`).

That derivations are parsed is an induction on them, with the groups around a phrase left open:
the machine reads a constraint into the conjunction that it is in, and a phrase of several operands
by reading each of them (`Parser.readsAs`). That nothing else is parsed is an invariant of the
machine. `Parser.Reached` says which derivations the tokens read so far are made of: finished
operands with a joint behind each, for every open group, and the part of a constraint that the
phase speaks of. Each token keeps it (`Reached.step`), and with the end of the filter it is a
derivation of the whole.
-/

namespace EntityQuery.Filter

variable {junction : Junction} {ts us vs : List Token}

namespace Parser

variable {p q : Parser} {g : Group} {outer : List Group} {selector operator : String}

/-! ## Derivations are read -/

/-- Behind a constraint either spelling of "and" asks for another one of the same conjunction. -/
theorem step_joint_and (s : Spelling) :
    (Parser.mk g outer .afterConstraint).step (s.token .and) = .ok ⟨g, outer, .constraint⟩ := by
  cases s <;> rfl

/-- Either spelling of "or" ends the conjunction first, since "and" binds closer. -/
theorem step_joint_or (s : Spelling) :
    (Parser.mk g outer .afterConstraint).step (s.token .or) =
      .ok ⟨g.endConjunction, outer, .constraint⟩ := by
  cases s <;> rfl

/-- One argument without parentheses completes the comparison. -/
theorem step_argument (a : Argument) :
    (Parser.mk g outer (.argument selector operator)).step a.token =
      .ok ⟨g.addConstraint (.comparison selector operator [a.text]), outer, .afterConstraint⟩ := by
  cases a <;> rfl

theorem step_argumentOfList (a : Argument) (arguments : List String) :
    (Parser.mk g outer (.listArgument selector operator arguments)).step a.token =
      .ok ⟨g, outer, .listEnd selector operator (arguments ++ [a.text])⟩ := by
  cases a <;> rfl

/-- The further arguments of a list are collected one by one. -/
theorem reads_furtherTokens (further : List Argument) (arguments : List String) :
    (Parser.mk g outer (.listEnd selector operator arguments)).Reads
      (Arguments.furtherTokens further)
      ⟨g, outer, .listEnd selector operator (arguments ++ further.map (·.text))⟩ := by
  induction further generalizing arguments with
  | nil =>
    rw [List.map_nil, List.append_nil]
    exact reads_nil _
  | cons a further ih =>
    have rest := ih (arguments ++ [a.text])
    rw [List.append_assoc, List.singleton_append] at rest
    exact reads_cons rfl (reads_cons (step_argumentOfList a arguments) rest)

/-- The machine reads the arguments of a comparison in both of their forms and then has the
comparison as one more constraint. -/
theorem reads_arguments (arguments : Arguments) :
    (Parser.mk g outer (.argument selector operator)).Reads arguments.tokens
      ⟨g.addConstraint (.comparison selector operator arguments.texts), outer,
        .afterConstraint⟩ := by
  cases arguments with
  | single a => exact reads_cons (step_argument a) (reads_nil _)
  | list first further =>
    exact reads_cons rfl (reads_cons (step_argumentOfList first [])
      (reads_append (reads_furtherTokens further [first.text]) (reads_cons rfl (reads_nil _))))

/-- How the machine reads a phrase: a constraint and the operands of a conjunction go to the
conjunction that it is in, and of the operands of a disjunction the last stays open. -/
def ReadsAs : {phrase : Phrase} → Derivation phrase → Prop
  | .constraint, d => ∀ g outer, (Parser.mk g outer .constraint).Reads d.tokens
      ⟨g.addConstraint d.node, outer, .afterConstraint⟩
  | .joined .and, d => ∀ g outer, (Parser.mk g outer .constraint).Reads d.tokens
      ⟨⟨g.disjuncts, g.conjuncts ++ d.operands⟩, outer, .afterConstraint⟩
  | .joined .or, d => ∀ before outer, ∃ g : Group,
      g.endConjunction.disjuncts = before ++ d.operands ∧
        (Parser.mk ⟨before, []⟩ outer .constraint).Reads d.tokens ⟨g, outer, .afterConstraint⟩

/-- The operands of a conjunction that is read behind nothing make up one disjunct. -/
theorem endConjunction_operands (before : List Node) (d : Derivation (.joined .and)) :
    (Group.mk before ([] ++ d.operands)).endConjunction = ⟨before ++ [d.node], []⟩ := by
  rw [Group.endConjunction, List.nil_append, d.join_operands]

/-- Behind a joint the next disjunct is read. -/
theorem step_joint_operands (before : List Node) (d : Derivation (.joined .and)) (s : Spelling) :
    (Parser.mk ⟨before, [] ++ d.operands⟩ outer .afterConstraint).step (s.token .or) =
      .ok ⟨⟨before ++ [d.node], []⟩, outer, .constraint⟩ := by
  rw [step_joint_or, endConjunction_operands]

/-- The machine reads every phrase of the grammar and has its tree. The induction is on the
derivation, with one case for each rule. -/
theorem readsAs {phrase : Phrase} (d : Derivation phrase) : ReadsAs d := by
  induction d with
  | comparison selector operator arguments =>
    intro g outer
    exact reads_cons rfl (reads_cons rfl (reads_arguments arguments))
  | group inner ih =>
    intro g outer
    obtain ⟨last, hlast, reads⟩ := ih [] (g :: outer)
    -- what was read inside becomes one constraint of the group around it
    have closed : last.node = inner.node := by
      rw [Group.node, hlast, List.nil_append, inner.join_operands]
    have close : (Parser.mk last (g :: outer) .afterConstraint).step .rightParen =
        .ok ⟨g.addConstraint last.node, outer, .afterConstraint⟩ := rfl
    rw [closed] at close
    exact reads_cons rfl (reads_append reads (reads_cons close (reads_nil _)))
  | @alone junction operand ih =>
    cases junction with
    | and => exact ih
    | or =>
      intro before outer
      exact ⟨_, congrArg Group.disjuncts (endConjunction_operands before operand),
        ih ⟨before, []⟩ outer⟩
  | @more junction operand joint rest ihOperand ihRest =>
    cases junction with
    | and =>
      intro g outer
      have behind := ihRest (g.addConstraint operand.node) outer
      rw [Group.addConstraint, List.append_assoc, List.singleton_append] at behind
      exact reads_append (ihOperand g outer) (reads_cons (step_joint_and joint) behind)
    | or =>
      intro before outer
      -- the mark ends the conjunction that is open, before the rest is read
      obtain ⟨last, hlast, behind⟩ := ihRest (before ++ [operand.node]) outer
      refine ⟨last, ?_, reads_append (ihOperand ⟨before, []⟩ outer)
        (reads_cons (step_joint_operands before operand joint) behind)⟩
      rw [hlast, List.append_assoc, List.singleton_append]
      rfl

end Parser

/-! ## What has been read is derived -/

/-- Tokens derive operands of a junction, with a joint behind each of them. -/
inductive Leading (junction : Junction) : List Token → List Node → Prop
  | nil : Leading junction [] []
  | snoc {ts : List Token} {ns : List Node} (front : Leading junction ts ns)
    (operand : Derivation (.operand junction)) (joint : Spelling) :
    Leading junction (ts ++ (operand.tokens ++ [joint.token junction])) (ns ++ [operand.node])

/-- What is read in front of a phrase of the same junction belongs to it. -/
theorem Leading.derivation {ns : List Node} (h : Leading junction ts ns)
    (rest : Derivation (.joined junction)) :
    ∃ d : Derivation (.joined junction),
      d.tokens = ts ++ rest.tokens ∧ d.operands = ns ++ rest.operands := by
  induction h generalizing rest with
  | nil => exact ⟨rest, rfl, rfl⟩
  | snoc front operand joint ih =>
    obtain ⟨d, htokens, hoperands⟩ := ih (.more operand joint rest)
    rw [Derivation.tokens] at htokens
    rw [Derivation.operands] at hoperands
    exact ⟨d, by rw [htokens]; simp only [List.append_assoc, List.singleton_append],
      by rw [hoperands, List.append_assoc, List.singleton_append]⟩

namespace Group

variable {g : Group}

/-- What was read of an open group up to where a constraint starts. -/
def Derives (g : Group) (ts : List Token) : Prop :=
  ∃ us vs, ts = us ++ vs ∧ Leading .or us g.disjuncts ∧ Leading .and vs g.conjuncts

theorem empty_derives : Group.empty.Derives [] := ⟨[], [], rfl, .nil, .nil⟩

/-- A constraint and an "and" behind it go on with the conjunction that is open. -/
theorem Derives.conjunct (h : g.Derives ts) (d : Derivation .constraint) (s : Spelling) :
    (g.addConstraint d.node).Derives (ts ++ (d.tokens ++ [s.token .and])) := by
  obtain ⟨us, vs, rfl, disjuncts, conjuncts⟩ := h
  exact ⟨us, _, List.append_assoc .., disjuncts, conjuncts.snoc d s⟩

/-- A last constraint ends the conjunction that the group is in. -/
theorem Derives.conjunction (h : g.Derives ts) (d : Derivation .constraint) :
    ∃ us, ∃ c : Derivation (.joined .and), ts ++ d.tokens = us ++ c.tokens ∧
      Leading .or us g.disjuncts ∧
      (g.addConstraint d.node).endConjunction.disjuncts = g.disjuncts ++ [c.node] := by
  obtain ⟨us, vs, rfl, disjuncts, conjuncts⟩ := h
  obtain ⟨c, htokens, hoperands⟩ := conjuncts.derivation (.alone d)
  refine ⟨us, c, ?_, disjuncts, ?_⟩
  · rw [htokens, List.append_assoc]
    rfl
  · have operands : c.operands = g.conjuncts ++ [d.node] := hoperands
    rw [← c.join_operands, operands]
    rfl

/-- A constraint and an "or" behind it close the conjunction that is open. -/
theorem Derives.disjunct (h : g.Derives ts) (d : Derivation .constraint) (s : Spelling) :
    (g.addConstraint d.node).endConjunction.Derives (ts ++ (d.tokens ++ [s.token .or])) := by
  obtain ⟨us, c, htokens, disjuncts, ended⟩ := h.conjunction d
  refine ⟨us ++ (c.tokens ++ [s.token .or]), [], ?_, ?_, .nil⟩
  · rw [List.append_nil, ← List.append_assoc, htokens, List.append_assoc]
  · rw [ended]
    exact disjuncts.snoc c s

/-- A last constraint makes the group a filter, and its tree is the tree of the group. -/
theorem Derives.filter (h : g.Derives ts) (d : Derivation .constraint) :
    ∃ f : Derivation .filter, f.tokens = ts ++ d.tokens ∧
      (g.addConstraint d.node).node = f.node := by
  obtain ⟨us, c, htokens, disjuncts, ended⟩ := h.conjunction d
  obtain ⟨f, hf, hoperands⟩ := disjuncts.derivation (.alone c)
  refine ⟨f, hf.trans htokens.symm, ?_⟩
  have operands : f.operands = g.disjuncts ++ [c.node] := hoperands
  rw [Group.node, ended, ← operands, f.join_operands]

end Group

/-- What was read of the groups around the innermost one, each up to the parenthesis of the next. -/
inductive Around : List Group → List Token → Prop
  | nil : Around [] []
  | cons {g : Group} {outer : List Group} {ts us : List Token} (around : Around outer ts)
    (opened : g.Derives us) : Around (g :: outer) (ts ++ (us ++ [.leftParen]))

/-- What was read of the constraint that a phase is in. -/
def Phase.Derives (ts : List Token) : Phase → Prop
  | .constraint => ts = []
  | .operator selector => ts = [.word selector]
  | .argument selector symbol => ts = [.word selector, .operator symbol]
  | .listArgument selector symbol [] => ts = [.word selector, .operator symbol, .leftParen]
  | .listArgument selector symbol arguments => ∃ first further,
      arguments = (Arguments.list first further).texts ∧
        ts = .word selector :: .operator symbol :: .leftParen :: first.token ::
          (Arguments.furtherTokens further ++ [.comma])
  | .listEnd selector symbol arguments => ∃ first further,
      arguments = (Arguments.list first further).texts ∧
        ts = .word selector :: .operator symbol :: .leftParen :: first.token ::
          Arguments.furtherTokens further
  | .afterConstraint | .done => False

namespace Phase

variable {selector symbol : String} {arguments : List String}

/-- A further argument goes to the end of the list. -/
theorem Derives.argumentOfList (h : (listArgument selector symbol arguments).Derives ts)
    (a : Argument) :
    (listEnd selector symbol (arguments ++ [a.text])).Derives (ts ++ [a.token]) := by
  cases arguments with
  | nil =>
    rw [Derives] at h
    subst h
    exact ⟨a, [], rfl, rfl⟩
  | cons text texts =>
    obtain ⟨first, further, htexts, rfl⟩ := h
    refine ⟨first, further ++ [a], ?_, ?_⟩
    · rw [htexts, Arguments.texts, Arguments.texts, List.map_append]
      rfl
    · rw [Arguments.furtherTokens_append]
      simp only [List.cons_append, List.append_assoc]
      rfl

theorem Derives.comma (h : (listEnd selector symbol arguments).Derives ts) :
    (listArgument selector symbol arguments).Derives (ts ++ [.comma]) := by
  obtain ⟨first, further, rfl, rfl⟩ := h
  exact ⟨first, further, rfl, rfl⟩

/-- The parenthesis behind a list makes it a comparison. -/
theorem Derives.comparison (h : (listEnd selector symbol arguments).Derives ts) :
    ∃ d : Derivation .constraint, d.tokens = ts ++ [.rightParen] ∧
      d.node = .comparison selector symbol arguments := by
  obtain ⟨first, further, rfl, rfl⟩ := h
  exact ⟨.comparison selector symbol (.list first further), rfl, rfl⟩

end Phase

namespace Token

variable {t : Token}

theorem exists_spelling_of_isAnd (h : t.isAnd) : ∃ s : Spelling, t = s.token .and := by
  cases t with
  | semicolon => exact ⟨.mark, rfl⟩
  | word text =>
    rw [of_decide_eq_true h]
    exact ⟨.word, rfl⟩
  | quoted | operator | leftParen | rightParen | comma | eof => cases h

theorem exists_spelling_of_isOr (h : t.isOr) : ∃ s : Spelling, t = s.token .or := by
  cases t with
  | comma => exact ⟨.mark, rfl⟩
  | word text =>
    rw [of_decide_eq_true h]
    exact ⟨.word, rfl⟩
  | quoted | operator | leftParen | rightParen | semicolon | eof => cases h

end Token

namespace Parser

variable {p q : Parser} {g : Group} {outer : List Group} {t : Token}

/-- The machine can have read tokens: they derive what it holds. -/
inductive Reached : List Token → Parser → Prop
  | within {g : Group} {outer : List Group} {phase : Phase} {ts us vs : List Token}
    (around : Around outer ts) (opened : g.Derives us) (read : phase.Derives vs) :
    Reached (ts ++ us ++ vs) ⟨g, outer, phase⟩
  | behind {g : Group} {outer : List Group} {ts us : List Token} (around : Around outer ts)
    (opened : g.Derives us) (d : Derivation .constraint) :
    Reached (ts ++ us ++ d.tokens) ⟨g.addConstraint d.node, outer, .afterConstraint⟩
  | done {g : Group} {outer : List Group} (d : Derivation .filter) (same : g.node = d.node) :
    Reached (d.tokens ++ [.eof]) ⟨g, outer, .done⟩

/-- At the start nothing has been read. -/
theorem start_reached : Reached [] start := .within .nil Group.empty_derives rfl

/-- Further tokens of the constraint that the machine is in. -/
theorem Reached.further {phase : Phase} (around : Around outer ts) (opened : g.Derives us)
    (read : phase.Derives (vs ++ [t])) : Reached (ts ++ us ++ vs ++ [t]) ⟨g, outer, phase⟩ := by
  rw [List.append_assoc]
  exact .within around opened read

/-- The last token of a constraint. -/
theorem Reached.last {n : Node} (around : Around outer ts) (opened : g.Derives us)
    (h : ∃ d : Derivation .constraint, d.tokens = vs ++ [t] ∧ d.node = n) :
    Reached (ts ++ us ++ vs ++ [t]) ⟨g.addConstraint n, outer, .afterConstraint⟩ := by
  obtain ⟨d, htokens, rfl⟩ := h
  rw [List.append_assoc, ← htokens]
  exact .behind around opened d

/-- A token behind a constraint joins a further one, closes the group or ends the filter. -/
theorem Reached.stepAfterConstraint (around : Around outer ts) (opened : g.Derives us)
    (d : Derivation .constraint)
    (hs : (Parser.mk (g.addConstraint d.node) outer .afterConstraint).stepAfterConstraint t =
      .ok q) : Reached (ts ++ us ++ d.tokens ++ [t]) q := by
  unfold Parser.stepAfterConstraint at hs
  split at hs
  · next isAnd =>
    cases hs
    obtain ⟨s, rfl⟩ := Token.exists_spelling_of_isAnd isAnd
    have read : Reached _ ⟨_, outer, .constraint⟩ := .within around (opened.conjunct d s) rfl
    simpa only [List.append_assoc, List.append_nil] using read
  split at hs
  · next isOr =>
    cases hs
    obtain ⟨s, rfl⟩ := Token.exists_spelling_of_isOr isOr
    have read : Reached _ ⟨_, outer, .constraint⟩ := .within around (opened.disjunct d s) rfl
    simpa only [List.append_assoc, List.append_nil] using read
  -- what is left closes the group, so the group is a filter now
  obtain ⟨f, htokens, hnode⟩ := opened.filter d
  cases around with
  | nil =>
    dsimp only at hs
    split at hs
    · next isEof =>
      cases hs
      rw [isEof, List.nil_append, ← htokens]
      exact .done f hnode
    · cases hs
  | cons around openedAround =>
    dsimp only at hs
    split at hs
    · next isParen =>
      cases hs
      have read := Reached.behind around openedAround (.group f)
      rw [Derivation.tokens, Derivation.node, ← hnode, htokens] at read
      rw [isParen]
      simpa only [List.append_assoc, List.cons_append, List.nil_append] using read
    · cases hs

/-- One token keeps what has been read derived. For each phase of the machine there is a phrase that
is begun (`Phase.Derives`), and the token goes on with it, ends it or opens another within it. -/
theorem Reached.step (h : Reached ts p) (hs : p.step t = .ok q) : Reached (ts ++ [t]) q := by
  cases h with
  | @within g outer phase ts us vs around opened read =>
    -- one case for each phase; only a parenthesis opens a group of its own
    unfold Parser.step at hs
    cases phase with
    | constraint =>
      rw [Phase.Derives] at read
      subst read
      dsimp only at hs
      split at hs
      · cases hs
        have read : Reached _ ⟨_, g :: outer, .constraint⟩ :=
          .within (.cons around opened) Group.empty_derives rfl
        simpa only [List.append_assoc, List.append_nil] using read
      · cases hs
        exact .further around opened rfl
      · cases hs
    | operator selector =>
      rw [Phase.Derives] at read
      subst read
      dsimp only at hs
      split at hs
      · cases hs
        exact .further around opened rfl
      · cases hs
    | argument selector operator =>
      rw [Phase.Derives] at read
      subst read
      dsimp only at hs
      split at hs
      · cases hs
        exact .further around opened rfl
      · next text =>
        cases hs
        -- the comparison is complete, and so is a derivation of a constraint
        exact .last around opened ⟨.comparison selector operator (.single (.bare text)), rfl, rfl⟩
      · next text =>
        cases hs
        exact .last around opened
          ⟨.comparison selector operator (.single (.quoted text)), rfl, rfl⟩
      · cases hs
    | listArgument selector operator arguments =>
      dsimp only at hs
      split at hs
      · next text =>
        cases hs
        exact .further around opened (read.argumentOfList (.bare text))
      · next text =>
        cases hs
        exact .further around opened (read.argumentOfList (.quoted text))
      · cases hs
    | listEnd selector operator arguments =>
      dsimp only at hs
      split at hs
      · cases hs
        exact .further around opened read.comma
      · cases hs
        exact .last around opened read.comparison
      · cases hs
    | afterConstraint => cases read
    | done => cases read
  | behind around opened d => exact .stepAfterConstraint around opened d hs
  | done d same => cases hs

/-- A run keeps what has been read derived, by induction on the tokens: all that a step needs is in
the relation. -/
theorem Reached.run (h : Reached ts p) {tokens : List PlacedToken} (hr : p.run tokens = .ok q) :
    Reached (ts ++ tokens.map (·.token)) q := by
  induction tokens generalizing p ts with
  | nil =>
    cases hr
    rw [List.map_nil, List.append_nil]
    exact h
  | cons t tokens ih =>
    rw [Parser.run] at hr
    split at hr
    · next next hs =>
      have behind := ih (h.step hs) hr
      rwa [List.append_assoc] at behind
    · cases hr

end Parser

/-! ## The filters that are parsed -/

/-- Tokens that end with the end of the filter are parsed as the derivations that they have. -/
theorem parseTokens_eq_ok_iff {tokens front : List PlacedToken} {last : PlacedToken} {n : Node}
    (htokens : tokens = front ++ [last]) (ending : last.token = .eof) :
    parseTokens tokens = .ok n ↔
      ∃ d : Derivation .filter, d.tokens ++ [.eof] = tokens.map (·.token) ∧ d.node = n := by
  constructor
  · intro h
    obtain ⟨q, hq, rfl⟩ := map_eq_ok.mp h
    have reached := Parser.start_reached.run hq
    -- no step but the one of the end mark leads to the last phase
    have finished : q.phase = .done := by
      rw [htokens] at hq
      obtain ⟨m, -, hend⟩ := Parser.run_append_eq_ok.mp hq
      have final := Parser.run_singleton_eq_ok hend
      rw [ending] at final
      exact Parser.step_eof final
    rw [List.nil_append] at reached
    generalize tokens.map (·.token) = ts at reached
    cases reached with
    | within around opened read =>
      dsimp only at finished
      subst finished
      cases read
    | behind around opened d => cases finished
    | done d same => exact ⟨d, rfl, same.symm⟩
  · rintro ⟨d, same, rfl⟩
    obtain ⟨g, hg, reads⟩ := Parser.readsAs d [] []
    have closed : g.node = d.node := by
      rw [Group.node, hg, List.nil_append, d.join_operands]
    have whole : Parser.start.Reads (tokens.map (·.token)) ⟨g, [], .done⟩ := by
      rw [← same]
      exact Parser.reads_append reads (Parser.reads_cons rfl (Parser.reads_nil _))
    exact map_eq_ok.mpr ⟨_, whole.run, closed⟩

/-- The parser decides the grammar of filters. The tokens of a text are parsed exactly when they
have a derivation, up to the end of the filter, and into its tree; there is no second derivation;
and the comparisons of the tree are those of the text, in their order. -/
theorem parseTokens_decides_grammar {input : String} {tokens : List PlacedToken}
    (scanned : scan input = .ok tokens) :
    (∀ n, parseTokens tokens = .ok n ↔
      ∃ d : Derivation .filter, d.tokens ++ [.eof] = tokens.map (·.token) ∧ d.node = n) ∧
    ∀ d : Derivation .filter, d.tokens ++ [.eof] = tokens.map (·.token) →
      d.node.leaves = d.comparisons ∧
      ∀ d' : Derivation .filter, d'.tokens ++ [.eof] = tokens.map (·.token) → d' = d := by
  obtain ⟨front, last, rfl, ending, -⟩ := scanFrom_tokens scanned
  refine ⟨fun n => parseTokens_eq_ok_iff rfl ending, fun d hd => ⟨d.leaves_node.1, ?_⟩⟩
  intro d' hd'
  exact Derivation.eq_of_tokens (hd'.trans hd.symm)

/-- Words that join elsewhere as a selector and an argument, a comma that separates arguments, and
a group below a conjunction. -/
theorem parseTokens_decides_grammar_words :
    ∃ tokens, scan "and==or;(a=in=(x,'y') or b<2)" = .ok tokens ∧
      parseTokens tokens = .ok (.logical .and [.comparison "and" "==" ["or"],
        .logical .or [.comparison "a" "=in=" ["x", "y"], .comparison "b" "<" ["2"]]]) ∧
      ∃ d : Derivation .filter, d.tokens ++ [.eof] = tokens.map (·.token) ∧
        ∀ d' : Derivation .filter, d'.tokens ++ [.eof] = tokens.map (·.token) → d' = d := by
  have scanned : (scan "and==or;(a=in=(x,'y') or b<2)").map (·.map (·.token)) =
      .ok [.word "and", .operator "==", .word "or", .semicolon, .leftParen, .word "a",
        .operator "=in=", .leftParen, .word "x", .comma, .quoted "y", .rightParen, .word "or",
        .word "b", .operator "<", .word "2", .rightParen, .eof] := by decide +kernel
  obtain ⟨tokens, scanned, htokens⟩ := map_eq_ok.mp scanned
  let list : Derivation .constraint := .comparison "a" "=in=" (.list (.bare "x") [.quoted "y"])
  let single : Derivation .constraint := .comparison "b" "<" (.single (.bare "2"))
  let d : Derivation .filter := .alone (.more (.comparison "and" "==" (.single (.bare "or"))) .mark
    (.alone (.group (.more (.alone list) .word (.alone (.alone single))))))
  have derived : d.tokens ++ [.eof] = tokens.map (·.token) := htokens.symm
  obtain ⟨parsed, unique⟩ := parseTokens_decides_grammar scanned
  exact ⟨tokens, scanned, (parsed _).mpr ⟨d, derived, rfl⟩, d, derived, (unique d derived).2⟩

end EntityQuery.Filter
