import EntityQuery.Filter.Parse
import EntityQuery.Proofs.Filter.Tree

/-!
# The grammar of filters

A derivation in the grammar

    or         = and { ("," | "or") and }
    and        = constraint { (";" | "and") constraint }
    constraint = "(" or ")" | comparison
    comparison = selector operator ( argument | "(" argument { "," argument } ")" )

is held as data, one constructor for each way in which a phrase is made. It has the tokens that it
derives and the tree that they stand for: constraints that are joined in one way are the children
of one junction, a single one is itself, and parentheses leave nothing behind.

The grammar is unambiguous (`Derivation.eq_of_tokens`). A constraint ends where its last token
does, and a phrase of several ends in front of the first token that does not join, so of two
derivations that agree on a run of tokens neither can go on longer than the other
(`eq_of_tokens_append`).
-/

namespace EntityQuery.Filter

/-- How what joins two constraints is spelled: as punctuation or as a word. -/
inductive Spelling where
  | mark
  | word

/-- The token that joins the operands of a junction. -/
def Spelling.token : Junction → Spelling → Token
  | .and, .mark => .semicolon
  | .and, .word => .word "and"
  | .or, .mark => .comma
  | .or, .word => .word "or"

/-- An argument, as it is written. Any word may be one, `and` and `or` too. -/
inductive Argument where
  | bare (text : String)
  | quoted (text : String)

namespace Argument

def token : Argument → Token
  | .bare text => .word text
  | .quoted text => .quoted text

def text : Argument → String
  | .bare text | .quoted text => text

end Argument

/-- The arguments of a comparison: a single one, or a list between parentheses. -/
inductive Arguments where
  | single (argument : Argument)
  | list (first : Argument) (further : List Argument)

namespace Arguments

/-- The arguments behind the first, each behind a comma. -/
def furtherTokens (further : List Argument) : List Token :=
  further.flatMap fun argument => [.comma, argument.token]

def tokens : Arguments → List Token
  | .single argument => [argument.token]
  | .list first further => .leftParen :: first.token :: (furtherTokens further ++ [.rightParen])

def texts : Arguments → List String
  | .single argument => [argument.text]
  | .list first further => first.text :: further.map (·.text)

end Arguments

/-- What the grammar has rules for: a single constraint, or operands of one junction. -/
inductive Phrase where
  | constraint
  | joined (junction : Junction)

namespace Phrase

/-- What stands between the joints of a junction: a conjunction between two `or`, a constraint
between two `and`. -/
def operand : Junction → Phrase
  | .or => .joined .and
  | .and => .constraint

/-- A whole filter. -/
abbrev filter : Phrase := .joined .or

end Phrase

/-- A derivation of a phrase. -/
inductive Derivation : Phrase → Type where
  | comparison (selector operator : String) (arguments : Arguments) : Derivation .constraint
  | group (inner : Derivation .filter) : Derivation .constraint
  | alone {junction : Junction} (operand : Derivation (.operand junction)) :
    Derivation (.joined junction)
  | more {junction : Junction} (operand : Derivation (.operand junction)) (joint : Spelling)
    (rest : Derivation (.joined junction)) : Derivation (.joined junction)

namespace Derivation

/-- The tokens that are derived. -/
def tokens {phrase : Phrase} : Derivation phrase → List Token
  | .comparison selector operator arguments =>
    .word selector :: .operator operator :: arguments.tokens
  | .group inner => .leftParen :: (inner.tokens ++ [.rightParen])
  | .alone operand => operand.tokens
  | @more junction operand joint rest => operand.tokens ++ joint.token junction :: rest.tokens

mutual

/-- The tree that the tokens stand for. -/
def node : {phrase : Phrase} → Derivation phrase → Node
  | _, .comparison selector operator arguments => .comparison selector operator arguments.texts
  | _, .group inner => inner.node
  | _, .alone operand => operand.node
  | _, @more junction operand _ rest => .logical junction (operand.node :: rest.operands)

/-- The trees of the operands of a junction, in order; a constraint is its own only one. -/
def operands : {phrase : Phrase} → Derivation phrase → List Node
  | _, .comparison selector operator arguments => [.comparison selector operator arguments.texts]
  | _, .group inner => [inner.node]
  | _, .alone operand => [operand.node]
  | _, .more operand _ rest => operand.node :: rest.operands

end

/-- The comparisons that are derived, from left to right. -/
def comparisons {phrase : Phrase} : Derivation phrase → List ComparisonText
  | .comparison selector operator arguments => [⟨selector, operator, arguments.texts⟩]
  | .group inner => inner.comparisons
  | .alone operand => operand.comparisons
  | .more operand _ rest => operand.comparisons ++ rest.comparisons

variable {phrase : Phrase} {junction : Junction}

/-- Whatever is derived has at least one operand, so a junction that is built of operands is never
childless. -/
theorem operands_ne_nil (d : Derivation phrase) : d.operands ≠ [] := by
  cases d with
  | comparison | group | alone | more =>
    rw [operands]
    exact List.cons_ne_nil _ _

/-- The tree of a junction is its operands joined, and a single one is itself. -/
theorem join_operands (d : Derivation (.joined junction)) :
    Node.join junction d.operands = d.node := by
  cases d with
  | alone operand =>
    rw [operands, node]
    rfl
  | more operand joint rest =>
    rw [operands, node]
    cases hrest : rest.operands with
    | nil => exact absurd hrest rest.operands_ne_nil
    | cons n ns => rfl

/-- The comparisons of the tree are those that are derived: none is lost, and all are in order. -/
theorem leaves_node (d : Derivation phrase) :
    d.node.leaves = d.comparisons ∧ Node.leavesOf d.operands = d.comparisons := by
  induction d with
  | comparison selector operator arguments =>
    rw [node, operands, comparisons]
    exact ⟨rfl, rfl⟩
  | group inner ih | alone inner ih =>
    rw [node, operands, comparisons, Node.leavesOf, Node.leavesOf, List.append_nil]
    exact ⟨ih.1, ih.1⟩
  | more operand joint rest ihOperand ihRest =>
    rw [node, operands, comparisons, Node.leaves, Node.leavesOf, ihOperand.1, ihRest.2]
    exact ⟨rfl, rfl⟩

end Derivation

/-! ## Where a phrase ends -/

namespace Argument

variable {a b : Argument}

/-- An argument can be told from its token: bare words and quoted texts have different ones. -/
theorem token_injective (h : a.token = b.token) : a = b := by
  cases a <;> cases b <;> cases h <;> rfl

theorem token_ne_leftParen (a : Argument) : a.token ≠ .leftParen := by
  cases a <;> rintro ⟨⟩

end Argument

namespace Arguments

variable {as bs : Arguments} {ts us : List Token}

theorem furtherTokens_cons (a : Argument) (further : List Argument) :
    furtherTokens (a :: further) = .comma :: a.token :: furtherTokens further := rfl

theorem furtherTokens_append (front behind : List Argument) :
    furtherTokens (front ++ behind) = furtherTokens front ++ furtherTokens behind :=
  List.flatMap_append

/-- A list of arguments goes on up to its parenthesis. A comma is no parenthesis, so where the one
list ends the other does. -/
theorem eq_of_furtherTokens_append {as bs : List Argument}
    (h : furtherTokens as ++ .rightParen :: ts = furtherTokens bs ++ .rightParen :: us) :
    as = bs ∧ ts = us := by
  induction as generalizing bs with
  | nil =>
    cases bs with
    | nil =>
      cases h
      exact ⟨rfl, rfl⟩
    | cons b bs => cases h
  | cons a as ih =>
    cases bs with
    | nil => cases h
    | cons b bs =>
      rw [furtherTokens_cons, furtherTokens_cons] at h
      obtain ⟨-, h⟩ := List.cons.inj h
      obtain ⟨hab, h⟩ := List.cons.inj h
      obtain ⟨rfl, rfl⟩ := ih h
      exact ⟨by rw [Argument.token_injective hab], rfl⟩

theorem eq_of_tokens_append (h : as.tokens ++ ts = bs.tokens ++ us) : as = bs ∧ ts = us := by
  cases as with
  | single a =>
    cases bs with
    | single b =>
      obtain ⟨hab, h⟩ := List.cons.inj h
      exact ⟨by rw [Argument.token_injective hab], h⟩
    -- a list opens with a parenthesis, and no argument is one
    | list first further => exact absurd (List.cons.inj h).1 a.token_ne_leftParen
  | list first further =>
    cases bs with
    | single b => exact absurd (List.cons.inj h).1.symm b.token_ne_leftParen
    | list first' further' =>
      simp only [tokens, List.cons_append, List.append_assoc, List.nil_append, List.cons.injEq,
        true_and] at h
      obtain ⟨hfirst, h⟩ := h
      obtain ⟨rfl, rfl⟩ := eq_of_furtherTokens_append h
      exact ⟨by rw [Argument.token_injective hfirst], rfl⟩

end Arguments

/-- Of one junction the two spellings have different tokens. -/
theorem Spelling.token_injective {junction : Junction} {s s' : Spelling}
    (h : s.token junction = s'.token junction) : s = s' := by
  cases junction <;> cases s <;> cases s' <;> first
    | rfl
    | cases h

namespace Phrase

variable {junction : Junction} {ts : List Token}

/-- A phrase ends in front of tokens that do not go on with a joint of it. A constraint is never
gone on with. -/
def EndsBefore : Phrase → List Token → Prop
  | .constraint, _ => True
  | .joined .and, ts => ∀ t ∈ ts.head?, t.isAnd = false
  | .joined .or, ts => ∀ t ∈ ts.head?, t.isAnd = false ∧ t.isOr = false

/-- The last operand ends where the junction does. -/
theorem EndsBefore.operand (h : (joined junction).EndsBefore ts) :
    (operand junction).EndsBefore ts := by
  cases junction with
  | and => trivial
  | or => exact fun t ht => (h t ht).1

/-- An operand ends in front of a joint. -/
theorem operand_endsBefore_joint (s : Spelling) (ts : List Token) :
    (operand junction).EndsBefore (s.token junction :: ts) := by
  cases junction with
  | and => trivial
  | or =>
    rintro t ⟨⟩
    cases s with
    | mark => rfl
    | word => rfl

/-- A joined phrase does not end in front of a token that would join more to it. This is what makes
derivations unique. -/
theorem not_endsBefore_joint (s : Spelling) (ts : List Token) :
    ¬(joined junction).EndsBefore (s.token junction :: ts) := by
  intro h
  cases junction with
  | and =>
    have ends := h _ rfl
    cases s <;> cases ends
  | or =>
    have ends := (h _ rfl).2
    cases s <;> cases ends

end Phrase

namespace Derivation

variable {phrase : Phrase} {ts us : List Token}

/-- Two derivations of a phrase with what follows it are the same, if the tokens are and neither
goes on. -/
theorem eq_of_tokens_append {d d' : Derivation phrase} (h : d.tokens ++ ts = d'.tokens ++ us)
    (ends : phrase.EndsBefore ts) (ends' : phrase.EndsBefore us) : d = d' ∧ ts = us := by
  induction d generalizing ts us with
  | comparison selector operator arguments =>
    cases d' with
    | comparison selector' operator' arguments' =>
      simp only [tokens, List.cons_append, List.cons.injEq, Token.word.injEq,
        Token.operator.injEq] at h
      obtain ⟨rfl, rfl, h⟩ := h
      obtain ⟨rfl, rfl⟩ := Arguments.eq_of_tokens_append h
      exact ⟨rfl, rfl⟩
    | group inner => cases (List.cons.inj h).1
  | group inner ih =>
    cases d' with
    | comparison selector operator arguments => cases (List.cons.inj h).1
    | group inner' =>
      simp only [tokens, List.cons_append, List.append_assoc, List.nil_append, List.cons.injEq,
        true_and] at h
      have closes : ∀ ts, Phrase.filter.EndsBefore (.rightParen :: ts) := by
        rintro ts t ⟨⟩
        exact ⟨rfl, rfl⟩
      obtain ⟨rfl, same⟩ := ih h (closes ts) (closes us)
      exact ⟨rfl, (List.cons.inj same).2⟩
  | alone operand ih =>
    cases d' with
    | alone operand' =>
      obtain ⟨rfl, rfl⟩ := ih h ends.operand ends'.operand
      exact ⟨rfl, rfl⟩
    | more operand' joint rest =>
      rw [tokens, tokens, List.append_assoc] at h
      obtain ⟨-, rfl⟩ := ih h ends.operand (Phrase.operand_endsBefore_joint joint _)
      exact absurd ends (Phrase.not_endsBefore_joint joint _)
  | more operand joint rest ihOperand ihRest =>
    cases d' with
    | alone operand' =>
      rw [tokens, tokens, List.append_assoc] at h
      obtain ⟨-, rfl⟩ := ihOperand h (Phrase.operand_endsBefore_joint joint _) ends'.operand
      exact absurd ends' (Phrase.not_endsBefore_joint joint _)
    | more operand' joint' rest' =>
      rw [tokens, tokens, List.append_assoc, List.append_assoc] at h
      obtain ⟨rfl, same⟩ := ihOperand h (Phrase.operand_endsBefore_joint joint _)
        (Phrase.operand_endsBefore_joint joint' _)
      obtain ⟨hjoint, same⟩ := List.cons.inj same
      obtain ⟨rfl, rfl⟩ := ihRest same ends ends'
      exact ⟨by rw [Spelling.token_injective hjoint], rfl⟩

/-- The grammar is unambiguous: a filter has one derivation. -/
theorem eq_of_tokens {d d' : Derivation .filter}
    (h : d.tokens ++ [.eof] = d'.tokens ++ [.eof]) : d = d' := by
  have closes : Phrase.filter.EndsBefore [.eof] := by
    rintro t ⟨⟩
    exact ⟨rfl, rfl⟩
  exact (eq_of_tokens_append h closes closes).1

end Derivation

end EntityQuery.Filter
