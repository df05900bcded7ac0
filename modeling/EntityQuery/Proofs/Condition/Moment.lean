import EntityQuery.Proofs.Calendar.Rendering
import EntityQuery.Proofs.Condition.Builtin
import EntityQuery.Proofs.Condition.Extension
import EntityQuery.Proofs.Condition.Selector
import EntityQuery.Proofs.Filter.Lexeme
import EntityQuery.Proofs.Filter.RoundTrip
import EntityQuery.Proofs.Handler.Literal
import EntityQuery.Value.Text

/-!
# Filters for moments

The text that a moment is shown with is a word of the filter language, so it is written in a filter
as it is. A field of dates reads it back as the moment, if that has nothing finer than a millisecond
and lies in no leap second but one that follows the second 59; hence the filter compares with the
moment itself (`dateTime_reads_back`). A leap second elsewhere has the text of the next second
(`dateTime_text_shared`).
-/

namespace EntityQuery

open EntityQuery.Filter (Node IsWord IsOperator)

variable {t : DateTime} {c : Catalog}

/-! ## Literals -/

/-- The text of a moment is a single word of the filter language, so it needs no quotes. -/
theorem DateTime.isWord_millisText (t : DateTime) : IsWord t.millisText := by
  constructor
  · rw [Calendar.toList_millisText]
    exact List.append_ne_nil_of_left_ne_nil (Calendar.solid_yearText _).nonempty _
  · intro c mem
    rcases Calendar.plain_millisText t c mem with mark | digit
    · simp only [List.mem_cons, List.not_mem_nil, or_false] at mark
      rcases mark with rfl | rfl | rfl | rfl | rfl <;> decide
    · exact isReserved_of_isDigit digit

/-- A word has no blanks around it. -/
theorem Filter.IsWord.trim_eq {word : String} (h : IsWord word) : Text.trim word = word := by
  refine Text.trim_eq_self fun c mem => ?_
  cases blank : Text.isBlank c with
  | false => rfl
  | true => exact absurd (isReserved_of_isBlank blank) (Bool.eq_false_iff.mp (h.2 c mem))

/-- Without a pattern the text of a moment of whole milliseconds is read as the moment, unless it is
one in a leap second elsewhere than behind the second 59. -/
theorem Literal.dateTime_millisText {context : LiteralContext} (free : context.datePattern = none)
    (whole : t.IsWholeMillis) (ends : t.LeapEndsMinute) :
    dateTime context t.millisText = .ok (.dateTime t) := by
  have read := Calendar.readLiteral?_millisText ends
  rw [whole.wholeMillis_eq] at read
  rw [dateTime, t.isWord_millisText.trim_eq, free, read]

/-- The handler of dates reads the text of a moment as the moment, as long as no pattern is set:
with one the text would have to follow the pattern. -/
theorem Handler.coerce_millisText {context : LiteralContext} (free : context.datePattern = none)
    (whole : t.IsWholeMillis) (ends : t.LeapEndsMinute) :
    Handler.date.coerce context [t.millisText] = .ok (.single (.dateTime t)) := by
  have nonempty : t.millisText ≠ "" := by
    intro empty
    have word := t.isWord_millisText
    rw [empty] at word
    exact word.1 rfl
  dsimp only [Handler.date]
  exact coerceEach_singleton nonempty (Literal.dateTime_millisText free whole ends)

/-- So it is for a field of dates, or of a collection of them. -/
theorem Registry.coerce_millisText {field : ResolvedField}
    (dates : field.type.candidate? = some .date ∨ field.type.candidate? = some .dateTime)
    (depth : Nat) (whole : t.IsWholeMillis) (ends : t.LeapEndsMinute) :
    (withAdded []).coerce c none depth field [t.millisText] = .ok (.single (.dateTime t)) := by
  have read {v : FieldType} (hv : field.type.candidate? = some v)
      (date : Handler.builtinFor v = .date) :
      (withAdded []).coerce c none depth field [t.millisText] = .ok (.single (.dateTime t)) := by
    obtain ⟨reached, rfl, same⟩ := coerce_candidate hv
    rw [same, coerce_eq_builtinFor, date]
    exact Handler.coerce_millisText rfl whole ends
  rcases dates with date | dateTime
  · exact read date rfl
  · exact read dateTime rfl

namespace Config

variable {operators : List ComparisonOperator} {config : Config} {root selector symbol : String}
  {p : Path} {leaf : ResolvedField} {op : ComparisonOperator} {e : Expression}

/-! ## Filters -/

/-- A comparison of dates with the text of a moment is what the operator makes of the moment. -/
theorem compileComparison_millisText (configured : build c none operators [] = .ok config)
    (hp : config.resolvePath root selector = .ok (p, leaf))
    (dates : leaf.type.candidate? = some .date ∨ leaf.type.candidate? = some .dateTime)
    (hop : config.operator symbol = .ok op) (whole : t.IsWholeMillis) (ends : t.LeapEndsMinute) :
    config.compileComparison root selector symbol [t.millisText] = .ok e ↔
      (Handler.builtinFor leaf.type).predicate p (.single (.dateTime t)) op = some e := by
  obtain ⟨-, rfl⟩ := build_eq_ok.mp configured
  have read := Registry.coerce_millisText (c := c) dates Registry.defaultDepth whole ends
  rw [compileComparison_plain_eq_ok rfl]
  constructor
  · rintro ⟨op', p', leaf', operand, hop', hp', read', made⟩
    cases hop.symm.trans hop'
    cases hp.symm.trans hp'
    cases read.symm.trans read'
    exact made
  · intro made
    exact ⟨op, p, leaf, _, hop, hp, read, made⟩

/-- Moments are shown with texts that read back. Whatever its year and also in a leap second, a
moment has the text of the moment that it names, and this is read from it, but for what is finer
than a millisecond. It is the moment itself exactly if that does not lie in a leap second elsewhere
than behind the second 59. So such moments of whole milliseconds have different texts, and such a
text can be written in a filter as it is: the literal for a field of dates is the moment, and the
filter is what the operator makes of it. -/
theorem dateTime_reads_back :
    (∀ t, (Value.dateTime t.named).display = (Value.dateTime t).display ∧
      Calendar.readLiteral? none (Value.dateTime t).display = some t.named.wholeMillis) ∧
    (∀ t, Calendar.readLiteral? none (Value.dateTime t).display = some t.wholeMillis ↔
      t.LeapEndsMinute) ∧
    Set.InjOn (fun t => (Value.dateTime t).display) {t | t.IsWholeMillis ∧ t.LeapEndsMinute} ∧
    ∀ enums entities c operators config root selector p leaf symbol op t,
      Catalog.build enums entities = .ok c → build c none operators [] = .ok config →
      config.resolvePath root selector = .ok (p, leaf) →
      leaf.type.candidate? = some .date ∨ leaf.type.candidate? = some .dateTime →
      IsOperator symbol → config.operator symbol = .ok op → t.IsWholeMillis → t.LeapEndsMinute →
      config.registry.coerce c none config.depth leaf [(Value.dateTime t).display] =
          .ok (.single (.dateTime t)) ∧
        ∀ e, config.compileFilter root (selector ++ symbol ++ (Value.dateTime t).display) = .ok e ↔
          (Handler.builtinFor leaf.type).predicate p (.single (.dateTime t)) op = some e := by
  have read (t : DateTime) : Calendar.readLiteral? none (Value.dateTime t).display =
      some t.named.wholeMillis := Calendar.readLiteral?_named t
  refine ⟨fun t => ⟨t.millisText_named, read t⟩, fun t => ?_, DateTime.millisText_injOn, ?_⟩
  · rw [read, Option.some.injEq, DateTime.wholeMillis_named_iff]
  intro enums entities c operators config root selector p leaf symbol op t built configured hp dates
    shape hop whole ends
  have literal := t.isWord_millisText
  -- the filter is the text of a comparison, so it is parsed as that
  have word : IsWord selector := by
    obtain ⟨-, rfl⟩ := build_eq_ok.mp configured
    obtain ⟨s, hs, -⟩ := resolvePath_eq_ok.mp hp
    exact Catalog.isWord_of_resolve built hs
  have wf : (Node.comparison selector symbol [t.millisText]).WellFormed :=
    .comparison word shape (List.cons_ne_nil _ _)
  have text : (Node.comparison selector symbol [t.millisText]).text =
      selector ++ symbol ++ (Value.dateTime t).display := by
    rw [Node.text, literal.argumentText_eq, Value.display]
  constructor
  · obtain ⟨-, rfl⟩ := build_eq_ok.mp configured
    exact Registry.coerce_millisText dates _ whole ends
  · intro e
    rw [← text, compileFilter, Filter.parse_text wf]
    exact compileNode_comparison_eq_ok.trans
      (compileComparison_millisText configured hp dates hop whole ends)

/-- A leap second of a year that needs a sign is shown without the last of its nanoseconds. What
remains is looked for in the field of a date. -/
theorem dateTime_reads_back_leap :
    let day : Date := ⟨-262143, 2, 28, by decide, by decide, by decide, by decide⟩
    let shown : DateTime :=
      ⟨day, ⟨23, 59, 59, 1250999999, by decide, by decide, by decide, by decide⟩⟩
    let read : DateTime :=
      ⟨day, ⟨23, 59, 59, 1250000000, by decide, by decide, by decide, by decide⟩⟩
    (Value.dateTime shown).display = "-262143-02-28T23:59:60.250" ∧
      Calendar.readLiteral? none "-262143-02-28T23:59:60.250" = some read ∧
      (standard Sample.catalog).compileFilter "Car" "mfgdt==-262143-02-28T23:59:60.250" =
        .ok (.compare .eq (.path ⟨"car", [.property "mfgdt"], .dateTime⟩)
          (.literal (.dateTime read))) := by
  intro day shown read
  have text : (Value.dateTime shown).display = "-262143-02-28T23:59:60.250" := by decide +kernel
  have same : (Value.dateTime read).display = "-262143-02-28T23:59:60.250" := by decide +kernel
  have cut : shown.wholeMillis = read := by decide +kernel
  have path : (standard Sample.catalog).resolvePath "Car" "mfgdt" =
      .ok (⟨"car", [.property "mfgdt"], .dateTime⟩, ⟨"mfgdt", none, .dateTime, "Car", none⟩) := by
    decide +kernel
  have equals : (standard Sample.catalog).operator "==" = .ok Builtin.equals.operator :=
    operator_builtin (build_eq_standard _) (by decide)
  obtain ⟨-, reads, -, fed⟩ := dateTime_reads_back
  have back := (reads shown).mpr (.inr rfl)
  rw [text, cut] at back
  have compiled := (fed _ _ _ _ _ "Car" "mfgdt" _ _ "==" _ read Sample.build_eq_catalog
    (build_eq_standard _) path (.inr rfl) (.inr ⟨[], nofun, rfl⟩) equals (by decide) (.inr rfl)).2
  rw [same] at compiled
  exact ⟨text, back, (compiled _).mpr rfl⟩

/-- A leap second that follows the second 23 is shown as the second 24, and is read as that. So not
every moment reads back, and two moments of whole milliseconds can have one text. -/
theorem dateTime_text_shared :
    let day : Date := ⟨2015, 6, 30, by decide, by decide, by decide, by decide⟩
    let leap : DateTime :=
      ⟨day, ⟨20, 19, 23, 1000000000, by decide, by decide, by decide, by decide⟩⟩
    let next : DateTime := ⟨day, ⟨20, 19, 24, 0, by decide, by decide, by decide, by decide⟩⟩
    (Value.dateTime leap).display = "2015-06-30T20:19:24.000" ∧
      Calendar.readLiteral? none "2015-06-30T20:19:24.000" = some next ∧
      leap.wholeMillis = leap ∧ leap ≠ next ∧
      (¬∀ t, Calendar.readLiteral? none (Value.dateTime t).display = some t.wholeMillis) ∧
      ¬Set.InjOn (fun t => (Value.dateTime t).display) {t | t.IsWholeMillis} := by
  intro day leap next
  have text : (Value.dateTime leap).display = "2015-06-30T20:19:24.000" := by decide +kernel
  have nextText : (Value.dateTime next).display = "2015-06-30T20:19:24.000" := by decide +kernel
  have read : Calendar.readLiteral? none "2015-06-30T20:19:24.000" = some next := by decide +kernel
  have whole : leap.wholeMillis = leap := by decide +kernel
  have apart : leap ≠ next := by decide +kernel
  refine ⟨text, read, whole, apart, fun every => ?_, fun injective => ?_⟩
  · have back := every leap
    rw [text, read, whole] at back
    exact apart (Option.some.inj back).symm
  · have leapWhole : leap.IsWholeMillis := by decide
    have nextWhole : next.IsWholeMillis := by decide
    exact apart (injective leapWhole nextWhole (text.trans nextText.symm))

end Config

end EntityQuery
