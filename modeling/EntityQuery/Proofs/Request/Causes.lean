import EntityQuery.Proofs.Condition.Blame
import EntityQuery.Proofs.Condition.Extension
import EntityQuery.Proofs.Filter.WellFormed
import EntityQuery.Request.Columns
import EntityQuery.Request.Ordering

/-!
# What a query can fail with

Every type has a handler, for added handlers come in front of one that supports all types
(`Registry.exists_lookup`). So a path never fails, and neither does the search for the handler that
reads the literals, at any depth of a collection. What is left is what can be wrong with the text: a
selector (`QueryError.OfSelector`), an entry of a list (`QueryError.OfList`), or a filter
(`QueryError.OfFilter`).

An added handler may answer with any error at all when it reads literals, and it may have them read
by the handler of any type, whose error it often only hands on. Followed down to the handler that
nobody hands it on to, an error is a literal that cannot be read, or raised by an added handler
itself (`Handler.Raises`, `Registry.coerce_failsOnly`).
-/

namespace EntityQuery

open EntityQuery.Filter (Node Junction)

/-! ## Causes -/

namespace QueryError

/-- What is wrong with a selector: its root, its spelling, or a field of it. -/
inductive OfSelector : QueryError → Prop
  | unknownEntity (name : String) : OfSelector (.unknownEntity name)
  | invalidSelector (selector : String) (fault : SelectorFault) :
    OfSelector (.invalidSelector selector fault)
  | unresolvedField (selector owner segment : String) :
    OfSelector (.unresolvedField selector owner segment)

/-- What is wrong with the text of an ordering or of a list of columns. -/
inductive OfList : QueryError → Prop
  | argument (fault : ArgumentFault) : OfList (.invalidArgument fault)
  | selector {e : QueryError} (h : e.OfSelector) : OfList e

/-- A literal that cannot be read as a value of its field. -/
inductive OfLiteral : QueryError → Prop
  | bad (literal field : String) (fault : LiteralFault) : OfLiteral (.badLiteral literal field fault)

/-- What is wrong with the text of a filter. -/
inductive OfFilter : QueryError → Prop
  | malformed (error : Filter.SyntaxError) : OfFilter (.malformedFilter error)
  | unknownOperator (symbol : String) : OfFilter (.unknownOperator symbol)
  | selector {e : QueryError} (h : e.OfSelector) : OfFilter e
  | literal {e : QueryError} (h : e.OfLiteral) : OfFilter e
  | noPredicate (selector operator : String) (arguments : List String) :
    OfFilter (.noPredicate selector operator arguments)

/-- What no text of a query is a cause of: a type without a handler, an operator that cannot be
written, and operands that do not go together. -/
inductive OfNoText : QueryError → Prop
  | unsupportedType (t : FieldType) : OfNoText (.unsupportedType t)
  | illegalOperator (symbol : String) : OfNoText (.illegalOperator symbol)
  | operandMismatch (mismatch : OperandMismatch) : OfNoText (.operandMismatch mismatch)

variable {e : QueryError}

theorem OfNoText.not_ofFilter (h : e.OfNoText) : ¬e.OfFilter := by
  intro other
  cases h with
  | unsupportedType | illegalOperator | operandMismatch =>
    cases other with
    | selector h | literal h => cases h

theorem OfNoText.not_ofList (h : e.OfNoText) : ¬e.OfList := by
  intro other
  cases h with
  | unsupportedType | illegalOperator | operandMismatch =>
    cases other with
    | selector h => cases h

end QueryError

open QueryError (OfSelector OfList OfLiteral OfFilter OfNoText)

/-! ## Selectors -/

namespace Catalog

variable {c : Catalog}

/-- A segment fails as a field that is not there, or for an index on a field without elements. -/
theorem resolveSegment_failsOnly (selector entity : String) (parent : Option Nat)
    (segment : Segment) : FailsOnly OfSelector (c.resolveSegment selector entity parent segment) := by
  unfold resolveSegment
  split
  · exact .error (.unresolvedField _ _ _)
  · split
    · exact .error (.invalidSelector _ _)
    · exact .ok _

/-- Reading a segment fails with a fault of its spelling. -/
theorem readSegment_failsOnly (selector : String) (piece : List Char) :
    FailsOnly OfSelector (readSegment selector piece) := by
  unfold readSegment
  split
  · exact .ok _
  · exact .error (.invalidSelector _ _)

theorem resolveBehind_failsOnly (selector : String) (position : Nat) (previous : ResolvedField)
    (pieces : List (List Char)) :
    FailsOnly OfSelector (c.resolveBehind selector position previous pieces) := by
  induction pieces generalizing position previous with
  | nil => exact .ok _
  | cons piece pieces ih =>
    rw [resolveBehind]
    refine .bind (readSegment_failsOnly selector piece) fun segment => ?_
    split
    · exact .error (.unresolvedField _ _ _)
    · next entity _ =>
      refine .bind (resolveSegment_failsOnly selector entity _ segment) fun field => ?_
      exact .bind (ih (position + 1) field) fun _ => .ok _

/-- Resolving a selector fails in these ways, or because its root is unknown. Behind the root every
entity that a field leads to is taken as it is declared. -/
theorem resolve_failsOnly (root selector : String) :
    FailsOnly OfSelector (c.resolve root selector) := by
  unfold resolve
  split
  · exact .error (.unknownEntity root)
  · split
    · exact .error (.invalidSelector _ _)
    · split
      · exact .error (.invalidSelector _ _)
      · next first rest _ =>
        refine .bind (readSegment_failsOnly selector first) fun segment => ?_
        refine .bind (resolveSegment_failsOnly selector root none segment) fun field => ?_
        exact .bind (resolveBehind_failsOnly selector 0 field rest) fun _ => .ok _

end Catalog

/-! ## Literals -/

namespace Literal

variable (c : LiteralContext) (literal : String)

/-- A literal fails as one that cannot be read, whatever the type is. -/
theorem number_failsOnly : FailsOnly OfLiteral (number c literal) := by
  unfold number
  dsimp only
  split
  · exact .ok _
  · exact .error (.bad _ _ _)

theorem boolean_failsOnly : FailsOnly OfLiteral (boolean c literal) := by
  unfold boolean
  dsimp only
  split
  · exact .ok _
  · split
    · exact .ok _
    · exact .error (.bad _ _ _)

theorem constant_failsOnly : FailsOnly OfLiteral (constant c literal) := by
  unfold constant
  split
  · split
    · exact .ok _
    · exact .error (.bad _ _ _)
  · exact .error (.bad _ _ _)

theorem dateTime_failsOnly : FailsOnly OfLiteral (dateTime c literal) := by
  unfold dateTime
  split
  · exact .ok _
  · exact .error (.bad _ _ _)

end Literal

/-- Several literals fail as one of them does. -/
theorem coerceEach_failsOnly {P : QueryError → Prop} {read : String → Except QueryError Value}
    (each : ∀ literal, FailsOnly P (read literal)) (literals : List String) :
    FailsOnly P (coerceEach read literals) := by
  refine .map (.mapM fun literal _ => ?_) _
  split
  · exact .ok _
  · exact each literal

namespace Handler

/-- A handler can hand an error on: there are literals that, read by the handler of some type, are
answered with it. -/
def HandsOn (context : LiteralContext) (e : QueryError) : Prop :=
  ∃ t setting literals, context.read t setting literals = .error e

/-- A handler raises an error of its own accord: it answers with the error, and none of the handlers
that it can ask does. -/
def Raises (h : Handler) (context : LiteralContext) (e : QueryError) : Prop :=
  (∃ literals, h.coerce context literals = .error e) ∧ ¬HandsOn context e

/-- A collection raises nothing of its own accord. -/
theorem collection_failsOnly (kind : CollectionKind) (context : LiteralContext)
    (literals : List String) :
    FailsOnly (HandsOn context) ((collection kind).coerce context literals) := by
  intro e fails
  cases inner : context.field.element? with
  | none => simp [collection, inner] at fails
  | some element =>
    refine ⟨element.type, { context.toLiteralSetting with field := element }, literals, ?_⟩
    simpa [collection, inner] using fails

/-- Of its own accord a built-in handler answers with nothing but a literal that it cannot read. -/
theorem builtins_failOnly {h : Handler} (mem : h ∈ builtins) (context : LiteralContext)
    (literals : List String) :
    FailsOnly (fun e => OfLiteral e ∨ HandsOn context e) (h.coerce context literals) := by
  have literal {x : Except QueryError Operand} (h : FailsOnly OfLiteral x) :
      FailsOnly (fun e => OfLiteral e ∨ HandsOn context e) x := h.mono fun _ => .inl
  have collection (kind : CollectionKind) : FailsOnly (fun e => OfLiteral e ∨ HandsOn context e)
      ((collection kind).coerce context literals) :=
    (collection_failsOnly kind context literals).mono fun _ => .inr
  simp only [builtins, List.mem_cons, List.not_mem_nil, or_false] at mem
  obtain rfl | rfl | rfl | rfl | rfl | rfl | rfl | rfl | rfl | rfl := mem
  · exact literal (coerceEach_failsOnly (fun _ => .ok _) literals)
  · exact literal (coerceEach_failsOnly (fun _ => .ok _) literals)
  · exact literal (coerceEach_failsOnly (Literal.number_failsOnly context) literals)
  · exact literal (coerceEach_failsOnly (Literal.dateTime_failsOnly context) literals)
  · exact literal (coerceEach_failsOnly (Literal.boolean_failsOnly context) literals)
  · exact collection .list
  · exact collection .set
  · exact collection .generic
  · exact literal (coerceEach_failsOnly (Literal.constant_failsOnly context) literals)
  · exact .ok _

end Handler

/-! ## The registry -/

namespace Registry

variable {added : List Handler} {depth : Nat} {setting : LiteralSetting} {t : FieldType}
  {h : Handler} {literals : List String} {e : QueryError}

/-- Whatever is added, every type has a handler, an added or a built-in one. -/
theorem exists_lookup (added : List Handler) (t : FieldType) :
    ∃ h, (withAdded added).lookup t = .ok h ∧ (h ∈ added ∨ h ∈ Handler.builtins) := by
  have last : Handler.base ∈ added ++ Handler.builtins :=
    List.mem_append_right added (by simp [Handler.builtins])
  cases found : (added ++ Handler.builtins).find? (·.supports t) with
  | none => exact absurd rfl (List.find?_eq_none.mp found _ last)
  | some h =>
    refine ⟨h, ?_, List.mem_append.mp (List.mem_of_find?_eq_some found)⟩
    rw [lookup, withAdded]
    dsimp only
    rw [found]

/-- Every type has a handler, since the last built-in one supports all. So a resolved selector
always has a path. -/
theorem exists_extendAll (added : List Handler) (p : Path) (fields : List ResolvedField) :
    ∃ q, (withAdded added).extendAll p fields = .ok q := by
  induction fields generalizing p with
  | nil => exact ⟨p, rfl⟩
  | cons field fields ih =>
    obtain ⟨h, found, -⟩ := exists_lookup added field.type
    rw [extendAll, found]
    exact ih (h.extend p field)

/-- An added handler raises an error in some setting, where literals may be handed on to some depth
to the handlers that there are. -/
def Raised (added : List Handler) (e : QueryError) : Prop :=
  ∃ h ∈ added, ∃ depth setting, h.Raises ((withAdded added).contextAt depth setting) e

/-- What is not handed on is a literal that cannot be read, or raised by an added handler. -/
theorem coerce_of_not_handsOn (found : (withAdded added).lookup t = .ok h)
    (fails : h.coerce ((withAdded added).contextAt depth setting) literals = .error e)
    (own : ¬Handler.HandsOn ((withAdded added).contextAt depth setting) e) :
    OfLiteral e ∨ Raised added e := by
  obtain ⟨h', found', origin⟩ := exists_lookup added t
  cases found.symm.trans found'
  cases origin with
  | inl mem => exact .inr ⟨h, mem, depth, setting, ⟨literals, fails⟩, own⟩
  | inr mem =>
    have cause := Handler.builtins_failOnly mem _ literals e fails
    exact .inl (cause.resolve_right own)

/-- Literals fail to be read because one of them cannot be, or with an error that an added handler
raises, whichever handlers they are handed on to. -/
theorem read_failsOnly (depth : Nat) (t : FieldType) (setting : LiteralSetting)
    (literals : List String) :
    FailsOnly (fun e => OfLiteral e ∨ Raised added e)
      ((withAdded added).read depth t setting literals) := by
  intro e fails
  induction depth generalizing t setting literals with
  | zero =>
    cases fails
    exact .inl (.bad _ _ _)
  | succ depth ih =>
    -- whichever type is asked for, there is a handler of it
    obtain ⟨h, found, -⟩ := exists_lookup added t
    rw [read, found, ok_bind] at fails
    by_cases handed : Handler.HandsOn ((withAdded added).contextAt depth setting) e
    · obtain ⟨inner, other, texts, failed⟩ := handed
      exact ih inner other texts failed
    · exact coerce_of_not_handsOn found fails handed

/-- So it is for the handler of a field. -/
theorem coerce_failsOnly {catalog : Catalog} {pattern : Option String} {field : ResolvedField}
    (found : (withAdded added).lookup field.type = .ok h) (literals : List String) :
    FailsOnly (fun e => OfLiteral e ∨ Raised added e)
      (h.coerce ((withAdded added).contextOf catalog pattern depth field) literals) := by
  intro e fails
  refine read_failsOnly (depth + field.type.nesting + 1) field.type ⟨field, pattern, catalog⟩
    literals e ?_
  rw [read, found, ok_bind]
  exact fails

end Registry

/-! ## Filters -/

namespace Filter.Node

/-- A tree that comes out of the parser has no childless junction, so that failure is left to trees
that are made by hand. -/
theorem WellFormed.populated {n : Node} (h : n.WellFormed) : n.Populated := by
  induction h with
  | comparison word shape nonempty => exact .comparison _ _ _
  | @logical junction children two _ ih =>
    have nonempty : children ≠ [] := by
      intro none
      rw [none] at two
      exact absurd two (by decide)
    exact .logical nonempty ih

/-- The ends of a populated tree are comparisons. -/
theorem Populated.of_mem_ends {n m : Node} (h : n.Populated) (hm : m ∈ n.ends) : m.Populated := by
  induction h with
  | comparison selector operator arguments =>
    rw [ends, List.mem_singleton] at hm
    rw [hm]
    exact .comparison selector operator arguments
  | @logical junction children nonempty _ ih =>
    cases children with
    | nil => exact absurd rfl nonempty
    | cons child children =>
      rw [ends_logical_cons] at hm
      obtain ⟨inner, mem, hm⟩ := List.mem_flatMap.mp hm
      exact ih inner mem hm

end Filter.Node

namespace Config

variable {catalog : Catalog} {pattern : Option String} {operators : List ComparisonOperator}
  {added : List Handler} {depth : Nat} {config : Config} {root : String}

/-- A symbol fails as an unknown operator. -/
theorem operator_failsOnly (symbol : String) : FailsOnly OfFilter (config.operator symbol) := by
  unfold operator
  split
  · exact .ok _
  · exact .error (.unknownOperator symbol)

section

variable (registry : config.registry = .withAdded added)
include registry

/-- The path of a selector fails with the selector only. -/
theorem resolvePath_failsOnly (selector : String) :
    FailsOnly OfSelector (config.resolvePath root selector) := by
  refine .bind (Catalog.resolve_failsOnly root selector) fun s => ?_
  obtain ⟨p, hp⟩ := Registry.exists_extendAll added (Path.root s.root) s.fields
  have path : config.registry.pathOf s = .ok p := registry ▸ hp
  rw [path]
  exact .ok _

/-- A comparison fails for what is wrong with its text, or with an error that an added handler
raises. -/
theorem compileComparison_failsOnly (selector symbol : String) (arguments : List String) :
    FailsOnly (fun e => OfFilter e ∨ Registry.Raised added e)
      (config.compileComparison root selector symbol arguments) := by
  refine .bind ((operator_failsOnly symbol).mono fun _ => .inl) fun op => ?_
  refine .bind ((resolvePath_failsOnly registry selector).mono fun _ h => .inl (.selector h)) ?_
  rintro ⟨p, leaf⟩
  obtain ⟨h, found, -⟩ := Registry.exists_lookup added leaf.type
  dsimp only
  rw [context, registry, found, ok_bind]
  refine .bind ((Registry.coerce_failsOnly found arguments).mono fun _ => ?_) ?_
  · exact Or.imp_left .literal
  · intro operand
    split
    · exact .ok _
    · exact .error (.inl (.noPredicate _ _ _))

/-- A tree fails as one of its comparisons does, or with what an added handler raises itself. -/
theorem compileNode_failsOnly {n : Node} (populated : n.Populated) :
    FailsOnly (fun err => OfFilter err.cause ∨
      Registry.Raised added err.cause)
      (config.compileNode root n) := by
  intro err fails
  obtain ⟨before, fault, behind, parts, -, failed⟩ := compileNode_eq_error.mp fails
  have hend : fault ∈ n.ends := parts ▸ List.mem_append_right before List.mem_cons_self
  cases (compileNode_end_eq_error hend).mp failed with
  | comparison fails' => exact compileComparison_failsOnly registry _ _ _ _ fails'
  | childless junction =>
    cases populated.of_mem_ends hend with
    | logical nonempty => exact absurd rfl nonempty

/-- A filter that is a text may also be misspelled. Its tree is populated, so no more than that is
added. -/
theorem compileFilter_failsOnly (filter : String) :
    FailsOnly (fun err => OfFilter err.cause ∨
      Registry.Raised added err.cause)
      (config.compileFilter root filter) := by
  unfold compileFilter
  split
  · next n parsed =>
    exact compileNode_failsOnly registry (Filter.parse_wellFormed parsed).populated
  · next error _ => exact .error (.inl (.malformed error))

/-! ## Lists -/

/-- Orderings fail with a selector, with a direction, or with a path that fans out. They read no
literals, so no type can be unsupported. -/
theorem compileSort_failsOnly (sort : String) :
    FailsOnly OfList (config.compileSort root sort) := by
  refine .bind (.mapM fun entry _ => ?_) fun entries => .mapM fun entry _ => ?_
  · unfold readSortEntry
    dsimp only
    split
    · exact .error (.argument _)
    · split
      · exact .ok _
      · exact .error (.argument _)
  · refine .bind ((resolvePath_failsOnly registry entry.1).mono fun _ => .selector) ?_
    rintro ⟨p, leaf⟩
    dsimp only
    split
    · exact .error (.argument _)
    · exact .ok _

/-- Columns fail with a selector, or as names that are not on the top level. -/
theorem compileSelect_failsOnly (select : String) :
    FailsOnly OfList (config.compileSelect root select) := by
  refine .mapM fun name _ => ?_
  unfold compileColumn
  split
  · exact .error (.argument _)
  · exact .map ((resolvePath_failsOnly registry _).mono fun _ => .selector) _

end

/-- Fields of one type whose literals are read as those of another, by the handler of that type. -/
def readAs (t u : FieldType) : Handler where
  name := "read-as"
  supports := (· = t)
  extend := Path.throughField
  coerce context literals :=
    context.read u { context.toLiteralSetting with field.type := u } literals
  predicate := basePredicate

end Config

end EntityQuery
