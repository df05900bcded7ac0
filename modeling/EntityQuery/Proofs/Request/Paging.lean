import EntityQuery.Proofs.Request.Draft
import EntityQuery.Proofs.Request.Window
import EntityQuery.Sample

/-!
# Ways to page

The rows of a draft can be given as a limit or a page, as numbers or as a text, or as an offset and
a size on their own. Calls of each kind overwrite what the earlier ones of that kind have set and
nothing else (`Draft.paged_eq`), and only when the draft is compiled do an offset and a size take
the place of those of the window. So the last call of each kind counts, in whatever order the kinds
come, and all ways to say which rows are meant come to the same request (`Draft.paging_agrees`).
-/

namespace EntityQuery

open Window (PairText)

variable {config : Config} {d : Draft} {r : Request} {number size start : UInt64}

/-! ## Calls -/

/-- A call that says which rows a draft takes. -/
inductive Paging where
  | limit (offset size : UInt64)
  | limitText (text : String)
  | page (number size : UInt64)
  | pageText (text : String)
  | skip (n : UInt64)
  | take (n : UInt64)

namespace Paging

def apply (d : Draft) : Paging → Draft
  | limit offset size => d.limit offset size
  | limitText text => d.limitText text
  | page number size => d.page number size
  | pageText text => d.pageText text
  | skip n => d.skip n
  | take n => d.take n

/-- The window that a call sets. -/
def window? : Paging → Option WindowPart
  | limit offset size => some (.window ⟨offset, size⟩)
  | limitText text => some (.limitText text)
  | page number size => some (.page number size)
  | pageText text => some (.pageText text)
  | _ => none

/-- The offset that a call sets whatever the window is. -/
def offset? : Paging → Option UInt64
  | skip n => some n
  | _ => none

/-- The size that a call sets whatever the window is. -/
def size? : Paging → Option UInt64
  | take n => some n
  | _ => none

/-- What one call of the builder changes: the window, the offset or the size, and each only by a
call of its own kind. -/
theorem apply_eq (d : Draft) (call : Paging) :
    call.apply d =
      { d with
        window := call.window?.or d.window
        offset := call.offset?.or d.offset
        size := call.size?.or d.size } := by
  cases call <;> rfl

/-- The calls that take a page. -/
inductive OfPage (number size : UInt64) : List Paging → Prop
  | numbers : OfPage number size [page number size]
  | text {text : String} (h : PairText number size text.toList) : OfPage number size [pageText text]

/-- The calls that take some rows from one on. -/
inductive OfRows (start size : UInt64) : List Paging → Prop
  | numbers : OfRows start size [limit start size]
  | text {text : String} (h : PairText start size text.toList) : OfRows start size [limitText text]
  | skipTake : OfRows start size [skip start, take size]
  | takeSkip : OfRows start size [take size, skip start]

end Paging

/-- What the last call sets that sets anything of a kind. -/
def lastOf {α : Type} (kind : Paging → Option α) (calls : List Paging) : Option α :=
  calls.reverse.findSome? kind

/-- The last call of a kind is looked for behind the first call. -/
theorem lastOf_cons {α : Type} (kind : Paging → Option α) (call : Paging) (calls : List Paging) :
    lastOf kind (call :: calls) = (lastOf kind calls).or (kind call) := by
  rw [lastOf, lastOf, List.reverse_cons, List.findSome?_append, List.findSome?_singleton]

namespace Draft

/-- A draft after some calls. -/
def paged (d : Draft) (calls : List Paging) : Draft := calls.foldl Paging.apply d

/-- Of the calls of each kind the last one counts, and what no call sets stays. -/
theorem paged_eq (d : Draft) (calls : List Paging) :
    d.paged calls =
      { d with
        window := (lastOf Paging.window? calls).or d.window
        offset := (lastOf Paging.offset? calls).or d.offset
        size := (lastOf Paging.size? calls).or d.size } := by
  induction calls generalizing d with
  | nil => rfl
  | cons call calls ih =>
    have step : d.paged (call :: calls) = (call.apply d).paged calls := rfl
    -- what the first call sets is below what the others set and above what was there
    rw [step, ih, Paging.apply_eq]
    simp only [lastOf_cons, Option.or_assoc]

/-- After some calls the draft compiles as before, with the rows that the last calls say. -/
theorem build_paged (unbounded : d.Unbounded) (built : d.build config = .ok r)
    (calls : List Paging) :
    (d.paged calls).build config =
      (outside ((lastOf Paging.window? calls).mapM compileWindow)).map fun window =>
        { r with
          offset := lastOf Paging.offset? calls <|> window.map (·.offset)
          size := lastOf Paging.size? calls <|> window.map (·.size) } := by
  obtain ⟨known, predicate, projection, ordering, entity⟩ := compilesTo_of_build built
  have compiled : CompilesTo config (d.paged calls) r := by
    rw [paged_eq]
    exact ⟨known, predicate, projection, ordering, entity⟩
  rw [compiled.build_eq, paged_eq, unbounded.window, unbounded.offset, unbounded.size]
  simp only [Option.or_none]
  rfl

/-! ## Forms -/

/-- A page that is written is the page that is given in numbers. -/
theorem window_of_pageText {text : String} (h : PairText number size text.toList) :
    compileWindow (.pageText text) = Window.page number size := by
  rw [compileWindow, Window.readPage, Window.readPair_eq_ok.mpr h]
  rfl

theorem window_of_limitText {text : String} (h : PairText start size text.toList) :
    compileWindow (.limitText text) = .ok ⟨start, size⟩ := by
  rw [compileWindow, Window.readLimit, Window.readPair_eq_ok.mpr h]
  rfl

/-- The calls for a page set its window. -/
theorem window_of_ofPage {calls : List Paging} (h : Paging.OfPage number size calls) :
    lastOf Paging.offset? calls = none ∧ lastOf Paging.size? calls = none ∧
      (lastOf Paging.window? calls).mapM compileWindow = (Window.page number size).map some := by
  cases h with
  | numbers => exact ⟨rfl, rfl, rfl⟩
  | text h => exact ⟨rfl, rfl, congrArg (Except.map some) (window_of_pageText h)⟩

/-- After the calls for a page a draft compiles with the rows of this page, unless the page starts
past the greatest number. -/
theorem build_ofPage (unbounded : d.Unbounded) (built : d.build config = .ok r)
    {calls : List Paging} (h : Paging.OfPage number size calls) :
    (d.paged calls).build config =
      if number.toNat * size.toNat < UInt64.size then
        .ok { r with offset := some (number * size), size := some size }
      else .error (.ofCause (.invalidArgument (.pageOverflow number size))) := by
  obtain ⟨offset, own, window⟩ := window_of_ofPage h
  rw [build_paged unbounded built, offset, own, window, Window.page]
  split
  · rfl
  · rfl

/-- After the calls for some rows a draft compiles with these rows. -/
theorem build_ofRows (unbounded : d.Unbounded) (built : d.build config = .ok r)
    {calls : List Paging} (h : Paging.OfRows start size calls) :
    (d.paged calls).build config = .ok { r with offset := some start, size := some size } := by
  rw [build_paged unbounded built]
  cases h with
  | numbers => rfl
  | @text text h =>
    have window : (lastOf Paging.window? [.limitText text]).mapM compileWindow =
        .ok (some ⟨start, size⟩) := congrArg (Except.map some) (window_of_limitText h)
    rw [window]
    rfl
  | skipTake => rfl
  | takeSkip => rfl

/-- A page is an offset and a size, provided their product can be counted; else the request is not
built. -/
theorem build_page (unbounded : d.Unbounded) (built : d.build config = .ok r)
    (number size : UInt64) :
    (d.page number size).build config =
      if number.toNat * size.toNat < UInt64.size then
        .ok { r with offset := some (number * size), size := some size }
      else .error (.ofCause (.invalidArgument (.pageOverflow number size))) :=
  build_ofPage unbounded built .numbers

/-- All ways to page agree. Let a draft that says nothing of rows compile to a request. If the first
row of a page has a number, all calls that take this page, or as many rows from its first one on,
lead to the same request but for these rows, and otherwise the calls for the page fail, in numbers
and in texts. After any sequence of calls the draft compiles if the last window does, and takes the
offset of the last call for one, or else that of this window, and likewise the size. -/
theorem paging_agrees (unbounded : d.Unbounded) (built : d.build config = .ok r) :
    (∀ number size : UInt64, number.toNat * size.toNat < UInt64.size →
      ∃ start : UInt64, start.toNat = number.toNat * size.toNat ∧
        ∀ calls, Paging.OfPage number size calls ∨ Paging.OfRows start size calls →
          (d.paged calls).build config =
            .ok { r with offset := some start, size := some size }) ∧
    (∀ number size : UInt64, UInt64.size ≤ number.toNat * size.toNat →
      ∀ calls, Paging.OfPage number size calls →
        (d.paged calls).build config =
          .error (.ofCause (.invalidArgument (.pageOverflow number size)))) ∧
    ∀ calls, (d.paged calls).build config =
      (outside ((lastOf Paging.window? calls).mapM compileWindow)).map fun window =>
        { r with
          offset := lastOf Paging.offset? calls <|> window.map (·.offset)
          size := lastOf Paging.size? calls <|> window.map (·.size) } := by
  refine ⟨fun number size within => ⟨number * size, ?_, fun calls form => ?_⟩,
    fun number size beyond calls form => ?_, build_paged unbounded built⟩
  · rw [UInt64.toNat_mul, Nat.mod_eq_of_lt within]
  · obtain page | rows := form
    · rw [build_ofPage unbounded built page, if_pos within]
    · exact build_ofRows unbounded built rows
  · rw [build_ofPage unbounded built form, if_neg (Nat.not_lt.mpr beyond)]

/-- The second page of fifteen cars, in words and in numbers, and a page that starts too far on. -/
theorem paging_agrees_cars :
    let cars := Draft.of "Car" .root
    let config := Config.standard Sample.catalog
    ∃ r, cars.build config = .ok r ∧
      (∀ calls ∈ [[Paging.page 1 15], [.pageText "1,15"], [.pageText " ( 1 , 15 ) "],
          [.limit 15 15], [.limitText "(15,15)"], [.skip 15, .take 15], [.take 15, .skip 15]],
        (cars.paged calls).build config = .ok { r with offset := some 15, size := some 15 }) ∧
      (cars.paged [.page 9223372036854775808 2]).build config =
        .error (.ofCause (.invalidArgument (.pageOverflow 9223372036854775808 2))) ∧
      (cars.paged [.skip 5, .pageText "no page", .limit 0 10]).build config =
        .ok { r with offset := some 5, size := some 10 } := by
  intro cars config
  have unbounded : cars.Unbounded := ⟨rfl, rfl, rfl⟩
  obtain ⟨r, built⟩ : ∃ r, cars.build config = .ok r := ⟨_, rfl⟩
  obtain ⟨within, beyond, any⟩ := paging_agrees unbounded built
  obtain ⟨start, product, forms⟩ := within 1 15 (by decide)
  obtain rfl : start = 15 := UInt64.toNat_inj.mp product
  have text {a b : UInt64} {text : String} (h : Window.readPair text = .ok (a, b)) :
      PairText a b text.toList := Window.readPair_eq_ok.mp h
  refine ⟨r, built, ?_, beyond _ 2 (by decide) _ .numbers, any _⟩
  simp only [List.forall_mem_cons]
  refine ⟨forms _ (.inl .numbers), forms _ (.inl (.text ?_)), forms _ (.inl (.text ?_)),
    forms _ (.inr .numbers), forms _ (.inr (.text ?_)), forms _ (.inr .skipTake),
    forms _ (.inr .takeSkip), List.forall_mem_nil _⟩
  · exact Window.pairText_decimal 1 15
  · exact text (by decide +kernel)
  · exact text (by decide +kernel)

end Draft

end EntityQuery
