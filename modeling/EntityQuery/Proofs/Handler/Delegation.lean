import EntityQuery.Proofs.Handler.Builtin
import EntityQuery.Proofs.Schema.Declaration

/-!
# What handlers leave to one another

A handler may have literals read by the handler of any type, and for any field. What it makes of
literals then depends on the handlers of the types that it asks for (`Handler.AsksOnly`). The
built-in ones ask for nothing but the elements of a collection.

Two registries read literals alike for a field if they agree on the handlers of the types that occur
in its type, as long as no handler asks for others (`Registry.coerce_congr`). If each asks for types
further inside only, the search ends by itself, and the depth to which literals may be handed on
does not matter (`Registry.coerce_depth`).
-/

namespace EntityQuery

variable {c : Catalog} {pattern : Option String} {field : ResolvedField} {setting : LiteralSetting}

/-- A type occurs in a field type, but is not the type itself. -/
def FieldType.Inside (inner t : FieldType) : Prop :=
  ∃ element, t.element? = some element ∧ inner.Within element

namespace FieldType

variable {t u : FieldType}

/-- What is inside a type is within it. -/
theorem Inside.within (h : t.Inside u) : t.Within u := by
  obtain ⟨element, declared, within⟩ := h
  cases u with
  | collection kind _ =>
    cases declared
    exact .element within
  | _ => cases declared

/-- Types get no deeper towards the inside. -/
theorem Within.nesting_le (h : t.Within u) : t.nesting ≤ u.nesting := by
  induction h with
  | self => exact Nat.le_refl _
  | element _ ih => exact Nat.le_succ_of_le ih

/-- An inner type is less deep. This is what makes handlers that ask for inner types only come to an
end. -/
theorem Inside.nesting_lt (h : t.Inside u) : t.nesting < u.nesting := by
  obtain ⟨element, declared, within⟩ := h
  cases u with
  | collection kind _ =>
    cases declared
    exact Nat.lt_succ_of_le within.nesting_le
  | _ => cases declared

end FieldType

namespace Handler

/-- A handler asks for types that stand in a relation to that of its field, and for fields of such
types: how any other literals are read makes no difference to it. -/
def AsksOnly (h : Handler) (related : FieldType → FieldType → Prop) : Prop :=
  ∀ (context : LiteralContext)
    (read : FieldType → LiteralSetting → List String → Except QueryError Operand),
    (∀ t setting, related t context.field.type → related setting.field.type context.field.type →
      context.read t setting = read t setting) →
    h.coerce context = h.coerce { context with read }

/-- A handler that asks within one relation of types asks within every wider one. -/
theorem AsksOnly.mono {h : Handler} {related related' : FieldType → FieldType → Prop}
    (asks : h.AsksOnly related) (wider : ∀ t u, related t u → related' t u) :
    h.AsksOnly related' := fun context read agree =>
  asks context read fun t setting ht hfield => agree t setting (wider _ _ ht) (wider _ _ hfield)

/-- A handler that reads literals one by one asks for nothing, if what it makes of each of them is
the same however others are read. -/
theorem AsksOnly.of_coerceEach {h : Handler} {related : FieldType → FieldType → Prop}
    {value : LiteralContext → String → Except QueryError Value}
    (each : h.coerce = fun context => coerceEach (value context))
    (same : ∀ context read literal, value { context with read } literal = value context literal) :
    h.AsksOnly related := by
  intro context read _
  rw [each]
  exact congrArg coerceEach (funext fun literal => (same context read literal).symm)

/-- Of the built-in handlers, those of collections ask for the elements, and the others for
nothing. -/
theorem asksOnly_of_mem_builtins {h : Handler} (mem : h ∈ builtins) :
    h.AsksOnly FieldType.Inside := by
  have collection (kind : CollectionKind) : (collection kind).AsksOnly FieldType.Inside := by
    rintro ⟨⟨⟨name, index, type, owner, parent⟩, pattern, catalog⟩, read'⟩ read agree
    cases type with
    | collection _ element => exact agree element _ ⟨element, rfl, .self⟩ ⟨element, rfl, .self⟩
    | _ => rfl
  simp only [builtins, List.mem_cons, List.not_mem_nil, or_false] at mem
  obtain rfl | rfl | rfl | rfl | rfl | rfl | rfl | rfl | rfl | rfl := mem
  · exact fun _ _ _ => rfl
  · exact fun _ _ _ => rfl
  · exact .of_coerceEach rfl fun _ _ _ => by simp only [Literal.number]
  · exact .of_coerceEach rfl fun _ _ _ => by simp only [Literal.dateTime]
  · exact .of_coerceEach rfl fun _ _ _ => by simp only [Literal.boolean]
  · exact collection .list
  · exact collection .set
  · exact collection .generic
  · exact .of_coerceEach rfl fun _ _ _ => by simp only [Literal.constant, Literal.enumOf]
  · exact fun _ _ _ => rfl

end Handler

namespace Registry

variable {r r' : Registry}

/-- A handler that is found is one of the registry. -/
theorem mem_of_lookup_eq_ok {t : FieldType} {h : Handler} (found : r.lookup t = .ok h) :
    h ∈ r.handlers := by
  unfold lookup at found
  split at found
  · next h' first =>
    cases found
    exact List.mem_of_find?_eq_some first
  · cases found

/-- One step of reading: what is handed on does not reach beyond the types on which two registries
agree, so that the handler that both have for a type reads alike. -/
theorem read_succ_congr {depth depth' : Nat} {t : FieldType}
    {related : FieldType → FieldType → Prop} (asks : ∀ h ∈ r'.handlers, h.AsksOnly related)
    (handler : r.lookup t = r'.lookup t)
    (inner : ∀ u other, related u setting.field.type → related other.field.type setting.field.type →
      r.read depth u other = r'.read depth' u other) :
    r.read (depth + 1) t setting = r'.read (depth' + 1) t setting := by
  funext literals
  rw [read, read, handler]
  cases found : r'.lookup t with
  | error e => rfl
  | ok h => exact congrFun (asks h (mem_of_lookup_eq_ok found) _ _ inner) literals

/-- Registries that agree on the types that occur in the type of a field read literals for it alike,
whichever type is asked, as long as they agree on it, too. -/
theorem read_congr (asks : ∀ h ∈ r'.handlers, h.AsksOnly FieldType.Within) (depth : Nat)
    {t : FieldType} (handler : r.lookup t = r'.lookup t)
    (agree : ∀ u, u.Within setting.field.type → r.lookup u = r'.lookup u) :
    r.read depth t setting = r'.read depth t setting := by
  induction depth generalizing t setting with
  | zero => rfl
  | succ depth ih =>
    refine read_succ_congr asks handler fun u other hu within => ?_
    exact ih (agree u hu) fun v hv => agree v (hv.trans within)

/-- The literals for a field depend on the handlers of the types that occur in its type. -/
theorem coerce_congr (asks : ∀ h ∈ r'.handlers, h.AsksOnly FieldType.Within) (c : Catalog)
    (pattern : Option String) (depth : Nat)
    (agree : ∀ u, u.Within field.type → r.lookup u = r'.lookup u) :
    r.coerce c pattern depth field = r'.coerce c pattern depth field :=
  read_congr asks (depth + field.type.nesting + 1) (agree _ .self) agree

/-- Handlers that ask for what is further inside come to an end, and any depth that leaves room for
the elements of a collection is enough. -/
theorem read_eq_of_nesting_lt (asks : ∀ h ∈ r.handlers, h.AsksOnly FieldType.Inside)
    {depth depth' : Nat} (room : setting.field.type.nesting < depth)
    (room' : setting.field.type.nesting < depth') (t : FieldType) :
    r.read depth t setting = r.read depth' t setting := by
  induction depth generalizing depth' setting t with
  | zero => exact absurd room (Nat.not_lt_zero _)
  | succ depth ih =>
    obtain ⟨depth', rfl⟩ := Nat.exists_eq_succ_of_ne_zero (Nat.ne_zero_of_lt room')
    refine read_succ_congr asks rfl fun u other _ inside => ?_
    exact ih (Nat.lt_of_lt_of_le inside.nesting_lt (Nat.le_of_lt_succ room))
      (Nat.lt_of_lt_of_le inside.nesting_lt (Nat.le_of_lt_succ room')) u

/-- The depth is there for handlers that ask for other types than those further inside. To all
others it makes no difference. -/
theorem coerce_depth (asks : ∀ h ∈ r.handlers, h.AsksOnly FieldType.Inside) (depth depth' : Nat) :
    r.coerce c pattern depth field = r.coerce c pattern depth' field :=
  read_eq_of_nesting_lt asks (Nat.lt_succ_of_le (Nat.le_add_left _ depth))
    (Nat.lt_succ_of_le (Nat.le_add_left _ depth')) field.type

/-- With the built-in handlers alone, literals are read as deep as the type of the field goes. -/
theorem coerce_builtin_depth (depth depth' : Nat) :
    (withAdded []).coerce c pattern depth field = (withAdded []).coerce c pattern depth' field :=
  coerce_depth (fun _ mem => Handler.asksOnly_of_mem_builtins mem) depth depth'

end Registry

end EntityQuery
