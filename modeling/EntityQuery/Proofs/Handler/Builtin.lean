import EntityQuery.Handler.Registry
import EntityQuery.Proofs.Schema.Resolution

/-!
# What the built-in handlers do

Without added handlers every type has the handler of its family (`lookup_builtin`), and paths take
the steps of the fields along them (`extendAll_builtin`). The literals of a comparable type are read
as null or as values of that type, and those of a collection as values of its elements
(`coerce_fits`).
-/

namespace EntityQuery

variable {c : Catalog} {pattern : Option String} {depth : Nat} {field : ResolvedField}
  {literals : List String} {x : Operand}

/-! ## Literals -/

namespace Operand

/-- Values that are made an operand are its values again, whether there is one or there are
several. -/
theorem toList_ofValues (vs : List Value) : (ofValues vs).toList = vs := by
  unfold ofValues
  split
  · rfl
  · rfl

theorem mem_toList_of_single? {v : Value} (h : x.single? = some v) : v ∈ x.toList := by
  cases x with
  | single w =>
    cases h
    exact List.mem_singleton_self v
  | list ws => cases h

end Operand

/-- Of literals that are read one by one, an empty one is null and each of the others what is
read. -/
theorem coerceEach_eq_ok {read : String → Except QueryError Value}
    (h : coerceEach read literals = .ok x) :
    ∀ v ∈ x.toList, "" ∈ literals ∧ v = .null ∨ ∃ literal, literal ≠ "" ∧ read literal = .ok v := by
  obtain ⟨vs, hvs, rfl⟩ := map_eq_ok.mp h
  intro v hv
  rw [Operand.toList_ofValues] at hv
  obtain ⟨literal, mem, hl⟩ := mem_of_mem_mapM hvs hv
  split at hl
  · next empty =>
    cases hl
    exact .inl ⟨empty ▸ mem, rfl⟩
  · next known => exact .inr ⟨literal, known, hl⟩

/-- A sized integer fits its own width. -/
theorem SizedInt.ofInt?_toInt (n : SizedInt) : ofInt? n.width n.toInt = some n := by
  rw [ofInt?, dif_pos ⟨n.lowest_le, n.le_highest⟩]

namespace Literal

variable {context : LiteralContext} {literal : String} {v : Value} {w : IntWidth}

/-- An integer is brought to a width that it fits. -/
theorem ofInteger_eq_ok_iff {z : Int} :
    ofInteger (.integral w) z = .ok v ↔
      ∃ n : SizedInt, n.width = w ∧ n.toInt = z ∧ v = .integer n := by
  constructor
  · intro h
    unfold ofInteger SizedInt.ofInt? at h
    dsimp only at h
    split at h
    · next n hn =>
      cases h
      split at hn
      · cases hn
        exact ⟨_, rfl, rfl, rfl⟩
      · cases hn
    · cases h
  · intro ⟨n, width, value, same⟩
    rw [← width, ← value, same, ofInteger, SizedInt.ofInt?_toInt]

/-- Also by way of a floating-point number an integer field gets an integer of its width, or
nothing. -/
theorem readDouble_integral {cs : List Char} (h : readDouble (.integral w) cs = .ok v) :
    ∃ k : SizedInt, k.width = w ∧ v = .integer k := by
  unfold readDouble at h
  split at h
  · next y _ =>
    unfold ofDouble at h
    split at h
    · cases h
    · dsimp only at h
      split at h
      · obtain ⟨k, hk, -, same⟩ := ofInteger_eq_ok_iff.mp h
        exact ⟨k, hk, same⟩
      · cases h
  · cases h

/-- A numeral for a field of integers is read as an integer of its width. -/
theorem readNumber_integral {cs : List Char} (h : readNumber (.integral w) cs = .ok v) :
    ∃ k : SizedInt, k.width = w ∧ v = .integer k := by
  unfold readNumber at h
  split at h
  · exact readDouble_integral h
  · split at h
    · obtain ⟨k, hk, -, same⟩ := ofInteger_eq_ok_iff.mp h
      exact ⟨k, hk, same⟩
    · cases h
    · next eq =>
      cases eq

/-- A literal of an integer field becomes an integer of its width. -/
theorem number_eq_ok (ht : context.field.type = .numeric (.integral w))
    (h : number context literal = .ok v) : ∃ k : SizedInt, k.width = w ∧ v = .integer k := by
  unfold number at h
  dsimp only at h
  rw [ht, widthOf] at h
  split at h
  · next u hu =>
    cases h
    exact readNumber_integral hu
  · cases h

/-- A literal that has a first character becomes a character. -/
theorem exists_character (known : literal ≠ "") : ∃ a, character literal = .character a := by
  unfold character
  split
  · next empty => exact absurd (String.toList_eq_nil_iff.mp empty) known
  · exact ⟨_, rfl⟩

/-- A literal of a boolean field becomes a truth value. -/
theorem boolean_eq_ok (h : boolean context literal = .ok v) : ∃ b, v = .boolean b := by
  unfold boolean at h
  dsimp only at h
  split at h
  · cases h
    exact ⟨true, rfl⟩
  · split at h
    · cases h
      exact ⟨false, rfl⟩
    · cases h

/-- A literal of an enumeration becomes a constant. That it is one of the declared constants is
checked when it is read. -/
theorem constant_eq_ok (h : constant context literal = .ok v) : v = .constant literal := by
  unfold constant at h
  split at h
  · split at h
    · cases h
      rfl
    · cases h
  · cases h

/-- A moment is read as one, whether the field has a time of day or not. -/
theorem dateTime_eq_ok (h : dateTime context literal = .ok v) : ∃ t, v = .dateTime t := by
  unfold dateTime at h
  split at h
  · next t _ =>
    cases h
    exact ⟨t, rfl⟩
  · cases h

end Literal

/-! ## Handlers -/

/-- The class of what a path reaches through a field: that of its type, or of the type of its
elements; composite, if this is not declared. -/
def ResolvedField.reachedClass (field : ResolvedField) : TypeClass :=
  field.type.candidate?.elim .composite FieldType.classification

namespace Handler

def builtinFor : FieldType → Handler
  | .string => string
  | .character => character
  | .boolean => boolean
  | .numeric _ => numeric
  | .date | .dateTime => date
  | .enumeration _ => enumeration
  | .collection kind _ | .rawCollection kind => collection kind
  | .entity _ | .custom _ => base

/-- A handler takes a path through a field by the steps of the field. -/
theorem extend_builtinFor (p : Path) (field : ResolvedField) :
    (builtinFor field.type).extend p field =
      ⟨p.rootAlias, p.steps ++ field.steps, field.reachedClass⟩ := by
  have through (collection : field.type.isCollection)
      (h : field.type.elementClass = field.reachedClass) :
      p.throughCollection field = ⟨p.rootAlias, p.steps ++ field.steps, field.reachedClass⟩ := by
    rw [ResolvedField.steps, if_pos collection, Path.throughCollection,
      ResolvedField.elementStep, h]
    cases field.index <;> simp [Path.property, Path.any, Path.index]
  obtain ⟨name, index, type, owner, parent⟩ := field
  cases type with
  | collection kind element => exact through rfl rfl
  | rawCollection kind => exact through rfl rfl
  | _ => rfl

/-- What the handler of a comparable type makes of literals are values of the type, and null of
empty ones. -/
theorem coerce_builtinFor_values {t : FieldType} (comparable : t.isComparable)
    {context : LiteralContext} (ht : context.field.type = t)
    (h : (builtinFor t).coerce context literals = .ok x) :
    ∀ v ∈ x.toList, "" ∈ literals ∧ v = .null ∨ v.Fits c t ∧ v.isNull = false := by
  intro v hv
  -- each of these handlers reads one by one, so there is a single literal to look at
  have each {read : String → Except QueryError Value}
      (same : (builtinFor t).coerce context = coerceEach read)
      (one : ∀ literal, literal ≠ "" → read literal = .ok v → v.Fits c t ∧ v.isNull = false) :
      "" ∈ literals ∧ v = .null ∨ v.Fits c t ∧ v.isNull = false := by
    rw [same] at h
    exact (coerceEach_eq_ok h v hv).imp_right fun ⟨literal, known, hl⟩ => one literal known hl
  cases t with
  | string =>
    refine each rfl fun literal _ hl => ?_
    cases hl
    exact ⟨.text literal, rfl⟩
  | character =>
    refine each rfl fun literal known hl => ?_
    obtain ⟨a, same⟩ := Literal.exists_character known
    rw [same] at hl
    cases hl
    exact ⟨.character a, rfl⟩
  | boolean =>
    refine each rfl fun literal _ hl => ?_
    obtain ⟨b, rfl⟩ := Literal.boolean_eq_ok hl
    exact ⟨.boolean b, rfl⟩
  | numeric width =>
    cases width with
    | fractional p => cases comparable
    | integral w =>
      refine each rfl fun literal _ hl => ?_
      obtain ⟨k, width, rfl⟩ := Literal.number_eq_ok ht hl
      exact ⟨.integer k width, rfl⟩
  | date =>
    refine each rfl fun literal _ hl => ?_
    obtain ⟨t, rfl⟩ := Literal.dateTime_eq_ok hl
    exact ⟨.date t, rfl⟩
  | dateTime =>
    refine each rfl fun literal _ hl => ?_
    obtain ⟨t, rfl⟩ := Literal.dateTime_eq_ok hl
    exact ⟨.dateTime t, rfl⟩
  | enumeration enum =>
    refine each rfl fun literal _ hl => ?_
    obtain rfl := Literal.constant_eq_ok hl
    exact ⟨.constant enum literal, rfl⟩
  | entity | custom | collection | rawCollection => cases comparable

/-- All of them fit the type, as null fits any. The rules of predicates rest on it, as they compare
without looking. -/
theorem coerce_builtinFor_fits {t : FieldType} (comparable : t.isComparable)
    {context : LiteralContext} (ht : context.field.type = t)
    (h : (builtinFor t).coerce context literals = .ok x) : ∀ v ∈ x.toList, v.Fits c t := by
  intro v hv
  obtain ⟨-, rfl⟩ | ⟨fits, -⟩ := coerce_builtinFor_values (c := c) comparable ht h v hv
  · exact .null t
  · exact fits

end Handler

/-! ## The registry -/

namespace Registry

/-- Without additions every type has the built-in handler for it; the last one supports all
types. -/
theorem lookup_builtin (t : FieldType) : (withAdded []).lookup t = .ok (Handler.builtinFor t) := by
  cases t with
  | collection kind element => cases kind <;> rfl
  | rawCollection kind => cases kind <;> rfl
  | _ => rfl

/-- The path through some fields takes the steps of each, and its class is that of the last. -/
theorem extendAll_builtin (fields : List ResolvedField) (p : Path) :
    (withAdded []).extendAll p fields =
      .ok ⟨p.rootAlias, p.steps ++ fields.flatMap ResolvedField.steps,
        (fields.getLast?.map ResolvedField.reachedClass).getD p.kind⟩ := by
  induction fields generalizing p with
  | nil =>
    rw [List.flatMap_nil, List.append_nil]
    rfl
  | cons field fields ih =>
    rw [extendAll, lookup_builtin, ok_bind, Handler.extend_builtinFor, ih, List.flatMap_cons,
      List.append_assoc, List.getLast?_cons]
    cases fields.getLast? <;> rfl

/-- The path of some fields goes through them one after the other. -/
theorem steps_extendAll {fields : List ResolvedField} {p q : Path}
    (h : (withAdded []).extendAll p fields = .ok q) :
    q.steps = p.steps ++ fields.flatMap ResolvedField.steps := by
  rw [extendAll_builtin, Except.ok.injEq] at h
  rw [← h]

/-- The literals for a field are read by the handler of its type. -/
theorem coerce_eq_builtinFor (field : ResolvedField) :
    (withAdded []).coerce c pattern depth field literals =
      (Handler.builtinFor field.type).coerce ((withAdded []).contextOf c pattern depth field)
        literals := by
  rw [coerce, lookup_builtin]
  rfl

/-- The literals for a collection are those for its elements. However deep the collections are, this
takes nothing off the depth to which literals may be handed on. -/
theorem coerce_element {element : ResolvedField} (h : field.element? = some element) :
    (withAdded []).coerce c pattern depth field literals =
      (withAdded []).coerce c pattern depth element literals := by
  obtain ⟨name, index, type, owner, parent⟩ := field
  cases type with
  | collection kind t =>
    cases h
    cases kind <;> rfl
  | _ => cases h

/-- The literals for a field are those for what a path reaches through it. -/
theorem coerce_candidate {u : FieldType} (hu : field.type.candidate? = some u) :
    ∃ reached : ResolvedField, reached.type = u ∧ ∀ c pattern depth literals,
      (withAdded []).coerce c pattern depth field literals =
        (withAdded []).coerce c pattern depth reached literals := by
  obtain ⟨name, index, type, owner, parent⟩ := field
  cases type with
  | collection kind element =>
    cases hu
    exact ⟨_, rfl, fun _ _ _ _ => coerce_element rfl⟩
  | rawCollection kind => cases hu
  | _ =>
    cases hu
    exact ⟨_, rfl, fun _ _ _ _ => rfl⟩

/-- The literals for a field are read as null or as values of the type that a path reaches there,
if that is a comparable one. -/
theorem coerce_fits {u : FieldType} (hu : field.type.candidate? = some u)
    (comparable : u.isComparable)
    (h : (withAdded []).coerce c pattern depth field literals = .ok x) :
    ∀ v ∈ x.toList, v.Fits c u := by
  obtain ⟨reached, rfl, same⟩ := coerce_candidate hu
  rw [same, coerce_eq_builtinFor] at h
  exact Handler.coerce_builtinFor_fits comparable rfl h

end Registry

end EntityQuery
