import EntityQuery.Proofs.Filter.Rendering

/-!
# Rendering and parsing are inverse

The machine reads the tokens of a well-formed tree as that one constraint (`Parser.readsBack`): the
parentheses of a junction open a group, its children become the conjuncts or the disjuncts of that
group, and since there are at least two of them the closed group is the junction again. With the
scan of the rendered text this makes parsing the inverse of rendering (`parse_text`).
-/

namespace EntityQuery.Filter

namespace Parser

/-- The machine reads tokens and comes from one state to another, wherever the tokens stand. -/
def Reads (p : Parser) (ts : List Token) (q : Parser) : Prop := ts.foldlM step p = .ok q

variable {p q m : Parser} {t : Token} {ts us : List Token}

theorem reads_nil (p : Parser) : p.Reads [] p := rfl

theorem reads_cons (hs : p.step t = .ok m) (h : m.Reads ts q) : p.Reads (t :: ts) q := by
  rw [Reads, List.foldlM_cons]
  exact bind_eq_ok.mpr ⟨m, hs, h⟩

/-- A machine that reads one list of tokens and then another one reads both together. -/
theorem reads_append (hp : p.Reads ts m) (hm : m.Reads us q) : p.Reads (ts ++ us) q := by
  rw [Reads, List.foldlM_append]
  exact bind_eq_ok.mpr ⟨m, hp, hm⟩

/-- Placed tokens are read as the tokens that they are. -/
theorem Reads.run {tokens : List PlacedToken} (h : p.Reads (tokens.map (·.token)) q) :
    p.run tokens = .ok q := by
  induction tokens generalizing p with
  | nil =>
    cases h
    rfl
  | cons t ts ih =>
    obtain ⟨m, hm, rest⟩ := bind_eq_ok.mp h
    rw [Parser.run, hm]
    exact ih rest

/-- The tokens of a tree are read as one constraint, in whatever groups it stands. -/
def ReadsBack (n : Node) : Prop :=
  ∀ (g : Group) (outer : List Group), (Parser.mk g outer .constraint).Reads n.tokens
    ⟨g.addConstraint n, outer, .afterConstraint⟩

/-! ## Comparisons -/

variable {selector operator : String} {arguments : List String} {g : Group} {outer : List Group}

theorem step_argumentToken (selector operator argument : String) :
    (Parser.mk g outer (.argument selector operator)).step (argumentToken argument) =
      .ok ⟨g.addConstraint (.comparison selector operator [argument]), outer,
        .afterConstraint⟩ := by
  unfold argumentToken
  split
  · rfl
  · rfl

theorem step_listArgument (selector operator argument : String) (arguments : List String) :
    (Parser.mk g outer (.listArgument selector operator arguments)).step
        (argumentToken argument) =
      .ok ⟨g, outer, .listEnd selector operator (arguments ++ [argument])⟩ := by
  unfold argumentToken
  split
  · rfl
  · rfl

/-- A list of arguments is read behind those that have been read. -/
theorem reads_argumentTokens {as : List String} (nonempty : as ≠ []) (before : List String) :
    (Parser.mk g outer (.listArgument selector operator before)).Reads (argumentTokens as)
      ⟨g, outer, .listEnd selector operator (before ++ as)⟩ := by
  induction as generalizing before with
  | nil => exact absurd rfl nonempty
  | cons a as ih =>
    cases as with
    | nil => exact reads_cons (step_listArgument selector operator a before) (reads_nil _)
    | cons b bs =>
      have rest := ih (List.cons_ne_nil _ _) (before ++ [a])
      rw [List.append_assoc, List.singleton_append] at rest
      rw [argumentTokens]
      · exact reads_cons (step_listArgument selector operator a before) (reads_cons rfl rest)
      · exact List.cons_ne_nil _ _

/-- The tokens of a comparison are read as this comparison, with its arguments in a list or
alone. -/
theorem readsBack_comparison (nonempty : arguments ≠ []) :
    ReadsBack (.comparison selector operator arguments) := by
  intro g outer
  match arguments, nonempty with
  | [a], _ =>
    rw [Node.tokens]
    exact reads_cons rfl (reads_cons rfl
      (reads_cons (step_argumentToken selector operator a) (reads_nil _)))
  | a :: b :: as, _ =>
    have list : (Parser.mk g outer (.listArgument selector operator [])).Reads
        (argumentTokens (a :: b :: as)) ⟨g, outer, .listEnd selector operator (a :: b :: as)⟩ :=
      reads_argumentTokens (List.cons_ne_nil _ _) []
    rw [Node.tokens]
    · exact reads_cons rfl (reads_cons rfl (reads_cons rfl
        (reads_append list (reads_cons rfl (reads_nil _)))))
    · rintro c ⟨⟩

/-! ## Junctions -/

/-- Children of a conjunction are read as conjuncts. -/
theorem reads_conjuncts {ns : List Node} (nonempty : ns ≠ [])
    (each : ∀ n ∈ ns, ReadsBack n) (g : Group) (outer : List Group) :
    (Parser.mk g outer .constraint).Reads (Node.tokensOfAll .semicolon ns)
      ⟨⟨g.disjuncts, g.conjuncts ++ ns⟩, outer, .afterConstraint⟩ := by
  induction ns generalizing g with
  | nil => exact absurd rfl nonempty
  | cons n ns ih =>
    have first := each n List.mem_cons_self g outer
    cases ns with
    | nil => exact first
    | cons m ms =>
      have rest := ih (List.cons_ne_nil _ _) (fun n hn => each n (List.mem_cons_of_mem _ hn))
        (g.addConstraint n)
      rw [Group.addConstraint, List.append_assoc, List.singleton_append] at rest
      rw [Node.tokensOfAll]
      · exact reads_append first (reads_cons rfl rest)
      · exact List.cons_ne_nil _ _

/-- Children of a disjunction are read as disjuncts, the last of which is still open. -/
theorem reads_disjuncts {ns : List Node} (nonempty : ns ≠ [])
    (each : ∀ n ∈ ns, ReadsBack n) (before : List Node) (outer : List Group) :
    ∃ g : Group, g.endConjunction.disjuncts = before ++ ns ∧
      (Parser.mk ⟨before, []⟩ outer .constraint).Reads (Node.tokensOfAll .comma ns)
        ⟨g, outer, .afterConstraint⟩ := by
  induction ns generalizing before with
  | nil => exact absurd rfl nonempty
  | cons n ns ih =>
    have first := each n List.mem_cons_self ⟨before, []⟩ outer
    cases ns with
    | nil => exact ⟨_, rfl, first⟩
    | cons m ms =>
      obtain ⟨g, hg, rest⟩ := ih (List.cons_ne_nil _ _)
        (fun n hn => each n (List.mem_cons_of_mem _ hn)) (before ++ [n])
      refine ⟨g, by rw [hg, List.append_assoc, List.singleton_append], ?_⟩
      rw [Node.tokensOfAll]
      · exact reads_append first (reads_cons rfl rest)
      · exact List.cons_ne_nil _ _

/-- A junction of two and more keeps its node; with one child it would be the child. -/
theorem join_of_two {junction : Junction} {ns : List Node} (two : 2 ≤ ns.length) :
    Node.join junction ns = .logical junction ns := by
  unfold Node.join
  split
  · next n => exact absurd two (by decide : ¬2 ≤ 1)
  · rfl

/-- The tokens of a well-formed tree are read back as the tree, inner junctions between their
parentheses. -/
theorem readsBack {n : Node} (wf : n.WellFormed) : ReadsBack n := by
  induction n using Node.induct with
  | comparison selector operator arguments =>
    cases wf with
    | comparison word shape nonempty => exact readsBack_comparison nonempty
  | logical junction children ih =>
    cases wf with
    | logical two each =>
      have nonempty : children ≠ [] := by
        rintro rfl
        cases two
      have inner : ∀ n ∈ children, ReadsBack n := fun n hn => ih n hn (each n hn)
      intro g outer
      rw [Node.tokens]
      cases junction with
      | and =>
        have group : Group.node ⟨[], children⟩ = .logical .and children := join_of_two two
        have close : (Parser.mk ⟨[], children⟩ (g :: outer) .afterConstraint).step .rightParen =
            .ok ⟨g.addConstraint (Group.node ⟨[], children⟩), outer, .afterConstraint⟩ := rfl
        rw [group] at close
        exact reads_cons rfl (reads_append (reads_conjuncts nonempty inner .empty _)
          (reads_cons close (reads_nil _)))
      | or =>
        obtain ⟨last, hlast, reads⟩ := reads_disjuncts nonempty inner [] (g :: outer)
        have group : last.node = .logical .or children := by
          rw [Group.node, hlast, List.nil_append, join_of_two two]
        have close : (Parser.mk last (g :: outer) .afterConstraint).step .rightParen =
            .ok ⟨g.addConstraint last.node, outer, .afterConstraint⟩ := rfl
        rw [group] at close
        exact reads_cons rfl (reads_append reads (reads_cons close (reads_nil _)))

end Parser

/-- Printing and parsing a well-formed tree gives the tree. -/
theorem parse_text {n : Node} (wf : n.WellFormed) : parse n.text = .ok n := by
  obtain ⟨tokens, scanned, htokens⟩ :=
    scansBack wf [] [.eof] (fun c hc => by cases hc) scans_nil 0
  rw [List.append_nil] at scanned
  have reads : Parser.start.Reads (n.tokens ++ [.eof]) ⟨⟨[], [n]⟩, [], .done⟩ :=
    Parser.reads_append (Parser.readsBack wf _ _) (Parser.reads_cons rfl (Parser.reads_nil _))
  rw [← htokens] at reads
  exact bind_eq_ok.mpr ⟨tokens, scanned, map_eq_ok.mpr ⟨_, reads.run, rfl⟩⟩

/-- Rendering and parsing are inverse: whatever is parsed is well formed, and every well-formed
tree, of any depth and with any arguments, is parsed back from its text. -/
theorem parse_text_inverse :
    (∀ (input : String) (n : Node), parse input = .ok n → n.WellFormed) ∧
      ∀ n : Node, n.WellFormed → parse n.text = .ok n :=
  ⟨fun _ _ => parse_wellFormed, fun _ => parse_text⟩

/-- Arguments that look like the syntax around them, below a junction of the same kind. -/
theorem parse_text_inverse_quoted :
    let n : Node := .logical .or
      [.logical .or [.comparison "and" "==" ["it's"], .comparison "size" "<" ["=(or)"]],
       .comparison "name" "=in=" ["", "and", "a\\b"]]
    n.WellFormed ∧ parse n.text = .ok n := by
  intro n
  have quote : (Node.comparison "and" "==" ["it's"]).WellFormed :=
    .comparison (by decide +kernel) (.inr ⟨[], List.forall_mem_nil _, rfl⟩) (List.cons_ne_nil _ _)
  have angle : (Node.comparison "size" "<" ["=(or)"]).WellFormed :=
    .comparison (by decide +kernel) (.inl (by decide)) (List.cons_ne_nil _ _)
  have list : (Node.comparison "name" "=in=" ["", "and", "a\\b"]).WellFormed :=
    .comparison (by decide +kernel) (.inr ⟨['i', 'n'], List.all_eq_true.mp rfl, rfl⟩)
      (List.cons_ne_nil _ _)
  have wf : n.WellFormed := by
    refine .logical (by decide) ?_
    rintro m (_ | ⟨_, _ | ⟨_, ⟨⟩⟩⟩)
    · refine .logical (by decide) ?_
      rintro m (_ | ⟨_, _ | ⟨_, ⟨⟩⟩⟩)
      · exact quote
      · exact angle
    · exact list
  have back := parse_text_inverse.2 n wf
  exact ⟨parse_text_inverse.1 n.text n back, back⟩

end EntityQuery.Filter
