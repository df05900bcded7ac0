import EntityQuery.Proofs.Filter.WellFormed

/-!
# How tokens tile a filter

The tokens of a filter say where they start, and with that they cut it into pieces: blanks in front
of the first token, and from each token to the next its lexeme and the blanks behind. No character
is lost and none is read twice.

A text that is scanned is put together from such pieces (`exists_cut`), and a text that is put
together from them has their tokens (`Cut.scans`). A piece may be taken out, and blanks may be
added behind it, for a token is read again wherever its lexeme stands in front of a blank or of what
it stood in front of (`Takes.of_endsAs`). What the positions of tokens promise follows from the
pieces alone (`scan_tiles`).
-/

namespace EntityQuery.Filter

/-- A part of a filter: the lexeme of a token, and the blanks up to the next one. -/
structure Piece where
  lexeme : List Char
  token : Token
  blanks : List Char

namespace Piece

def text (p : Piece) : List Char := p.lexeme ++ p.blanks

/-- The text of pieces, one behind the other. -/
def textOf (ps : List Piece) : List Char := ps.flatMap text

/-- The tokens of pieces of which the first stands at a position, and the end of the filter. -/
def place (position : Nat) : List Piece → List PlacedToken
  | [] => [⟨.eof, position⟩]
  | p :: ps => ⟨p.token, position⟩ :: place (position + p.text.length) ps

end Piece

open Piece

/-- The token of each piece is taken from its lexeme, in front of all that is behind. -/
inductive Cut : List Piece → Prop
  | nil : Cut []
  | cons {c : Char} {lexeme blanks : List Char} {t : Token} {ps : List Piece}
    (visible : Text.isBlank c = false) (blank : Blanks blanks)
    (takes : Takes c (lexeme ++ (blanks ++ textOf ps)) t (blanks ++ textOf ps)) (rest : Cut ps) :
    Cut (⟨c :: lexeme, t, blanks⟩ :: ps)

variable {position : Nat} {cs lead : List Char} {tokens : List PlacedToken} {ps : List Piece}

/-- The text of the pieces is that of the first and of the others behind it. -/
theorem textOf_cons (p : Piece) (ps : List Piece) : textOf (p :: ps) = p.text ++ textOf ps :=
  List.flatMap_cons

theorem textOf_lexeme (c : Char) (lexeme blanks : List Char) (t : Token) (ps : List Piece) :
    textOf (⟨c :: lexeme, t, blanks⟩ :: ps) = c :: (lexeme ++ (blanks ++ textOf ps)) := by
  rw [textOf_cons, Piece.text, List.append_assoc, List.cons_append]

theorem place_lexeme (position : Nat) (c : Char) (lexeme blanks : List Char) (t : Token)
    (ps : List Piece) :
    place position (⟨c :: lexeme, t, blanks⟩ :: ps) =
      ⟨t, position⟩ :: place (position + (lexeme.length + 1) + blanks.length) ps := by
  simp only [place, Piece.text, List.length_append, List.length_cons, Nat.add_assoc]

/-- What is scanned is put together from pieces, and its tokens are theirs. A piece is a lexeme with
the blanks behind it, so that the pieces cover the text but for the blanks at its front. -/
theorem exists_cut (scanned : scanFrom position cs = .ok tokens) :
    ∃ lead ps, Blanks lead ∧ Cut ps ∧ cs = lead ++ textOf ps ∧
      tokens = place (position + lead.length) ps := by
  induction position, cs using scanFrom_induct generalizing tokens with
  | blanks position blanks blank =>
    rw [scanFrom_blanks position blank] at scanned
    cases scanned
    exact ⟨blanks, [], blank, .nil, (List.append_nil _).symm, rfl⟩
  | fault position blanks c cs fault blank visible fails =>
    rw [scanFrom_fault position blank visible fails] at scanned
    cases scanned
  | lexeme position blanks c lexeme rest t blank visible takes ih =>
    rw [scanFrom_lexeme position blank visible takes] at scanned
    obtain ⟨behind, hbehind, rfl⟩ := map_eq_ok.mp scanned
    obtain ⟨between, ps, hbetween, cut, rfl, rfl⟩ := ih hbehind
    exact ⟨blanks, ⟨c :: lexeme, t, between⟩ :: ps, blank, .cons visible hbetween takes cut,
      by rw [textOf_lexeme], by rw [place_lexeme]⟩

/-- What is put together from pieces is scanned, and has their tokens. -/
theorem Cut.scans (cut : Cut ps) (blank : Blanks lead) (position : Nat) :
    scanFrom position (lead ++ textOf ps) = .ok (place (position + lead.length) ps) := by
  induction cut generalizing lead position with
  | nil => rw [textOf, List.flatMap_nil, List.append_nil, scanFrom_blanks position blank, place]
  | cons visible between takes _ ih =>
    rw [textOf_lexeme, scanFrom_lexeme position blank visible takes, ih between, place_lexeme]
    rfl

/-! ## Positions -/

/-- Each piece has a character at least, and its token is not the end. So there are no more tokens
than characters and one. -/
theorem Cut.forall_mem (cut : Cut ps) :
    ∀ p ∈ ps, 0 < p.text.length ∧ p.token ≠ .eof := by
  induction cut with
  | nil => exact nofun
  | cons visible between takes _ ih =>
    exact List.forall_mem_cons.mpr ⟨⟨Nat.succ_pos _, (readToken_shaped takes.readToken).2⟩, ih⟩

/-- There is one token for each piece, and the end. -/
theorem length_place (position : Nat) (ps : List Piece) :
    (place position ps).length = ps.length + 1 := by
  induction ps generalizing position with
  | nil => rfl
  | cons p ps ih => rw [place, List.length_cons, ih, List.length_cons]

theorem map_token_place (position : Nat) (ps : List Piece) :
    (place position ps).map (·.token) = ps.map (·.token) ++ [.eof] := by
  induction ps generalizing position with
  | nil => rfl
  | cons p ps ih => rw [place, List.map_cons, ih, List.map_cons, List.cons_append]

/-- There are no more pieces than characters. -/
theorem Cut.length_le (cut : Cut ps) : ps.length ≤ (textOf ps).length := by
  induction cut with
  | nil => exact Nat.le_refl 0
  | cons visible between takes _ ih =>
    rw [textOf_lexeme]
    simp only [List.length_cons, List.length_append]
    omega

/-- Behind the tokens of pieces is the end of the filter, at the end of their text. -/
theorem place_eq_append (position : Nat) (ps : List Piece) :
    ∃ front, place position ps = front ++ [⟨.eof, position + (textOf ps).length⟩] ∧
      front.map (·.token) = ps.map (·.token) := by
  induction ps generalizing position with
  | nil => exact ⟨[], rfl, rfl⟩
  | cons p ps ih =>
    obtain ⟨front, split, same⟩ := ih (position + p.text.length)
    refine ⟨⟨p.token, position⟩ :: front, ?_, by rw [List.map_cons, List.map_cons, same]⟩
    rw [place, split, textOf_cons, List.length_append, Nat.add_assoc, List.cons_append]

/-- The positions of tokens increase, since each piece takes up room. -/
theorem Cut.pairwise_place (cut : Cut ps) (position : Nat) :
    (place position ps).Pairwise (·.position < ·.position) ∧
      ∀ t ∈ place position ps, position ≤ t.position := by
  induction cut generalizing position with
  | nil => exact ⟨List.pairwise_singleton _ _, by simp [place]⟩
  | @cons c lexeme blanks t ps visible between takes _ ih =>
    obtain ⟨increasing, behind⟩ := ih (position + (lexeme.length + 1) + blanks.length)
    rw [place_lexeme]
    refine ⟨List.pairwise_cons.mpr ⟨fun u hu => ?_, increasing⟩,
      List.forall_mem_cons.mpr ⟨Nat.le_refl _, fun u hu => ?_⟩⟩
    · have := behind u hu
      dsimp only
      omega
    · have := behind u hu
      omega

/-! ## Slices -/

/-- The parts of a text from each token to the next. -/
def slices (input : String) : List PlacedToken → List String
  | t :: u :: rest =>
    String.ofList (input.toList.extract t.position u.position) :: slices input (u :: rest)
  | _ => []

/-- The slices of a text are its pieces. -/
theorem slices_place {input : String} {front : List Char}
    (text : input.toList = front ++ textOf ps) :
    slices input (place front.length ps) = ps.map (String.ofList ·.text) := by
  induction ps generalizing front with
  | nil => rfl
  | cons p ps ih =>
    rw [textOf_cons, ← List.append_assoc] at text
    have rest := ih text
    have part : input.toList.extract front.length (front ++ p.text).length = p.text := by
      rw [text, List.append_assoc, List.extract, List.drop_left, List.length_append,
        Nat.add_sub_cancel_left, List.take_left]
    rw [List.length_append] at rest part
    rw [place, List.map_cons, ← rest]
    cases ps with
    | nil => rw [place, slices, part]
    | cons q qs => rw [place, slices, part]

/-! ## Blanks between pieces -/

/-- A text behind blanks ends a token as one behind fewer blanks does. -/
theorem endsAs_blanks {blanks added rest rest' : List Char} (blank : Blanks (blanks ++ added))
    (same : rest'.head? = rest.head?) : EndsAs (blanks ++ rest) (blanks ++ added ++ rest') := by
  cases blanks with
  | nil =>
    cases added with
    | nil => exact .inl same
    | cons b added => exact .inr fun c hc => by cases hc; exact blank _ List.mem_cons_self
  | cons b blanks => exact .inl rfl

/-- A piece is scanned on its own as its token. -/
theorem Cut.alone (cut : Cut ps) : ∀ p ∈ ps, Cut [p] := by
  induction cut with
  | nil => exact nofun
  | cons visible between takes _ ih =>
    refine List.forall_mem_cons.mpr ⟨.cons visible between (takes.of_endsAs (.inr ?_)) .nil, ih⟩
    intro c hc
    rw [textOf, List.flatMap_nil, List.append_nil] at hc
    exact between c (List.mem_of_mem_head? hc)

/-- Pieces with blanks added behind each. -/
def spread : List Piece → List (List Char) → List Piece
  | p :: ps, gap :: gaps => ⟨p.lexeme, p.token, p.blanks ++ gap⟩ :: spread ps gaps
  | _, _ => []

/-- Spreading the pieces puts the given gaps in place of the old ones. -/
theorem textOf_spread (ps : List Piece) (gaps : List (List Char)) :
    textOf (spread ps gaps) = (List.zipWith (· ++ ·) (ps.map text) gaps).flatten := by
  induction ps generalizing gaps with
  | nil => rfl
  | cons p ps ih =>
    cases gaps with
    | nil => rfl
    | cons gap gaps =>
      simp only [spread, textOf_cons, ih, List.map_cons, List.zipWith_cons_cons,
        List.flatten_cons, Piece.text, List.append_assoc]

/-- Slices that are joined with blanks between them are the text of the same pieces, with wider
blanks. -/
theorem toList_join_spread (lead : String) (ps : List Piece) (gaps : List String) :
    (lead ++ String.join (List.zipWith (· ++ ·) (ps.map (String.ofList ·.text)) gaps)).toList =
      lead.toList ++ textOf (spread ps (gaps.map String.toList)) := by
  rw [textOf_spread, String.toList_append, String.toList_join]
  simp only [List.flatMap_def, List.map_zipWith, String.toList_append, String.toList_ofList,
    List.zipWith_map_left, List.zipWith_map_right]

/-- Spreading leaves the tokens alone. -/
theorem map_token_spread {ps : List Piece} {gaps : List (List Char)}
    (each : gaps.length = ps.length) : (spread ps gaps).map (·.token) = ps.map (·.token) := by
  induction ps generalizing gaps with
  | nil => rfl
  | cons p ps ih =>
    cases gaps with
    | nil => cases each
    | cons gap gaps => rw [spread, List.map_cons, ih (Nat.succ.inj each), List.map_cons]

/-- With blanks added behind its pieces, a text is still put together from them. -/
theorem cut_spread (cut : Cut ps) {gaps : List (List Char)} (blank : ∀ gap ∈ gaps, Blanks gap)
    (each : gaps.length = ps.length) :
    Cut (spread ps gaps) ∧ (textOf (spread ps gaps)).head? = (textOf ps).head? := by
  induction cut generalizing gaps with
  | nil => exact ⟨.nil, rfl⟩
  | cons visible between takes _ ih =>
    cases gaps with
    | nil => cases each
    | cons gap gaps =>
      obtain ⟨hgap, hgaps⟩ := List.forall_mem_cons.mp blank
      obtain ⟨cut, same⟩ := ih hgaps (Nat.succ.inj each)
      have both := fun d hd => (List.mem_append.mp hd).elim (between d) (hgap d)
      rw [spread, textOf_lexeme, textOf_lexeme]
      exact ⟨.cons visible both (takes.of_endsAs (endsAs_blanks both same)) cut, rfl⟩

/-! ## The tiling -/

/-- What the positions of the tokens of a filter promise. -/
structure Tiling (input : String) (tokens : List PlacedToken) : Prop where
  /-- Every token starts behind the one before. -/
  increasing : tokens.Pairwise (·.position < ·.position)
  /-- The end of the filter is the last token and no other, behind all characters. -/
  ending : ∃ front, tokens = front ++ [⟨.eof, input.length⟩] ∧ ∀ t ∈ front, t.token ≠ .eof
  /-- In front of the first token there are only blanks. -/
  leading : ∀ first ∈ tokens.head?, Blanks (input.toList.take first.position)
  /-- From each token to the next there is a text of that one token. -/
  alone : List.Forall₂ (fun t slice => scan slice = .ok [⟨t.token, 0⟩, ⟨.eof, slice.length⟩])
    tokens.dropLast (slices input tokens)
  /-- Blanks in front of the slices, between them and behind them make no difference. -/
  spaced : ∀ (lead : String) (gaps : List String), Blanks lead.toList →
    (∀ gap ∈ gaps, Blanks gap.toList) → gaps.length = (slices input tokens).length →
      ∃ tokens', scan (lead ++ String.join (List.zipWith (· ++ ·) (slices input tokens) gaps)) =
        .ok tokens' ∧ tokens'.map (·.token) = tokens.map (·.token)

/-- No token starts behind the end of the filter. -/
theorem Tiling.position_le {input : String} (h : Tiling input tokens) :
    ∀ t ∈ tokens, t.position ≤ input.length := by
  obtain ⟨front, split, -⟩ := h.ending
  have increasing := h.increasing
  rw [split] at increasing ⊢
  intro t ht
  rcases List.mem_append.mp ht with ht | ht
  · exact Nat.le_of_lt ((List.pairwise_append.mp increasing).2.2 t ht _ List.mem_cons_self)
  · rw [List.mem_singleton.mp ht]

/-- The positions of tokens that tile a filter tell them apart. So a position in a syntax error
names one token. -/
theorem Tiling.position_eq_iff {input : String} {front behind : List PlacedToken}
    {t u : PlacedToken} (h : Tiling input (front ++ t :: behind)) {i : Nat}
    (hu : (front ++ t :: behind)[i]? = some u) :
    u.position = t.position ↔ i = front.length := by
  have increasing := List.pairwise_iff_getElem.mp h.increasing
  obtain ⟨hi, rfl⟩ := List.getElem?_eq_some_iff.mp hu
  have ht : front.length < (front ++ t :: behind).length := by simp
  have found : (front ++ t :: behind)[front.length] = t := by simp
  constructor
  · intro same
    rcases Nat.lt_trichotomy i front.length with before | here | after
    · have less := increasing i front.length hi ht before
      rw [found] at less
      exact absurd same (Nat.ne_of_lt less)
    · exact here
    · have more := increasing front.length i ht hi after
      rw [found] at more
      exact absurd same (Nat.ne_of_gt more)
  · rintro rfl
    rw [found]

/-- What stands in front of a token is not the end of the filter. -/
theorem Tiling.ne_eof {input : String} {front behind : List PlacedToken} {t : PlacedToken}
    (h : Tiling input (front ++ t :: behind)) : ∀ u ∈ front, u.token ≠ .eof := by
  obtain ⟨inner, split, each⟩ := h.ending
  have whole : front ++ (t :: behind).dropLast = inner := by
    rw [← List.dropLast_append_of_ne_nil (List.cons_ne_nil t behind), split, List.dropLast_concat]
  exact fun u hu => each u (whole ▸ List.mem_append_left _ hu)

/-- The scan, given up after a number of tokens. -/
def scanWithin : Nat → Nat → List Char → Option (Except SyntaxError (List PlacedToken))
  | 0, _, _ => none
  | n + 1, position, cs =>
    let start := position + (cs.takeWhile Text.isBlank).length
    match cs.dropWhile Text.isBlank with
    | [] => some (.ok [⟨.eof, start⟩])
    | c :: rest =>
      match readToken c rest with
      | .error fault => some (.error ⟨start, fault⟩)
      | .ok (token, remaining) =>
        (scanWithin n (start + 1 + (rest.length - remaining.length)) remaining).map
          (·.map (⟨token, start⟩ :: ·))

/-- A scan is done when it has read as many tokens as there are characters, and one more. -/
theorem scanWithin_eq_some {n : Nat} (enough : cs.length ≤ n) :
    scanWithin (n + 1) position cs = some (scanFrom position cs) := by
  induction position, cs using scanFrom_induct generalizing n with
  | blanks position blanks blank =>
    rw [scanFrom_blanks position blank, scanWithin, List.takeWhile_eq_self_iff.mpr blank,
      List.dropWhile_eq_nil_iff.mpr blank]
  | fault position blanks c cs fault blank visible fails =>
    obtain ⟨taken, dropped⟩ := span_blanks blank visible cs
    rw [scanFrom_fault position blank visible fails, scanWithin, taken, dropped]
    dsimp only
    rw [fails]
  | lexeme position blanks c lexeme rest t blank visible takes ih =>
    obtain ⟨taken, dropped⟩ := span_blanks blank visible (lexeme ++ rest)
    rw [List.length_append, List.length_cons, List.length_append] at enough
    -- The lexeme has a character, so a token can be read and as many as its rest has are left.
    obtain ⟨n, rfl⟩ : ∃ m, n = m + 1 := ⟨n - 1, by omega⟩
    have left : rest.length ≤ n := by omega
    rw [scanFrom_lexeme position blank visible takes, scanWithin, taken, dropped]
    dsimp only
    rw [takes.readToken]
    dsimp only
    rw [behind_lexeme, ih left, Option.map_some]

/-- A piece is a text of its token. -/
theorem Cut.scan_piece (cut : Cut ps) {p : Piece} (hp : p ∈ ps) :
    scan (String.ofList p.text) = .ok [⟨p.token, 0⟩, ⟨.eof, p.text.length⟩] := by
  have alone := (cut.alone p hp).scans blanks_nil 0
  rw [textOf_cons, textOf, List.flatMap_nil, List.append_nil, List.nil_append, place, place]
    at alone
  rw [scan, String.toList_ofList, alone, List.length_nil, Nat.zero_add, Nat.zero_add]

/-- Tokens tile the filter that they are read from. All of it is read off the pieces that the filter
is cut into: they are in order, leave nothing out, and each of them is scanned alike on its own. -/
theorem tiling_of_scan {input : String} (scanned : scan input = .ok tokens) :
    Tiling input tokens := by
  obtain ⟨lead, ps, blank, cut, text, rfl⟩ := exists_cut scanned
  rw [Nat.zero_add]
  have parts := slices_place text
  obtain ⟨front, split, same⟩ := place_eq_append lead.length ps
  have whole : lead.length + (textOf ps).length = input.length := by
    rw [← String.length_toList, text, List.length_append]
  refine ⟨(cut.pairwise_place lead.length).1, ⟨front, whole ▸ split, fun t ht => ?_⟩, ?_, ?_, ?_⟩
  · -- no token in front of the last is the end mark
    have listed := List.mem_map_of_mem (f := (·.token)) ht
    rw [same] at listed
    obtain ⟨p, hp, token⟩ := List.mem_map.mp listed
    exact token ▸ (cut.forall_mem p hp).2
  · -- in front of the first token there are blanks only
    intro first hfirst
    have start : first.position = lead.length := by
      cases ps <;> cases hfirst <;> rfl
    rw [start, text, List.take_left]
    exact blank
  · -- each slice is scanned alone
    rw [parts, split, List.dropLast_concat, List.forall₂_map_right_iff]
    have each : List.Forall₂ (fun t p => scan (String.ofList p.text) =
        .ok [⟨t, 0⟩, ⟨.eof, p.text.length⟩]) (front.map (·.token)) ps := by
      rw [same, List.forall₂_map_left_iff, List.forall₂_same]
      exact fun p hp => cut.scan_piece hp
    simp only [String.length_ofList]
    exact List.forall₂_map_left_iff.mp each
  · -- the tokens stay the same if the blanks between the slices are others
    intro lead' gaps hlead hgaps each
    rw [parts] at each ⊢
    have wide : ∀ gap ∈ gaps.map String.toList, Blanks gap := List.forall_mem_map.mpr hgaps
    have counted : (gaps.map String.toList).length = ps.length := by
      rw [List.length_map, each, List.length_map]
    have again := (cut_spread cut wide counted).1.scans hlead 0
    refine ⟨_, by rw [scan, toList_join_spread, again], ?_⟩
    rw [map_token_place, map_token_spread counted, map_token_place]

/-- The tokens of every filter tile it, and are read one by one within as many steps as there are
characters and one more, also where the filter has a fault. -/
theorem scan_tiles (input : String) :
    (∀ tokens, scan input = .ok tokens →
      Tiling input tokens ∧ tokens.length ≤ input.length + 1) ∧
    scanWithin (input.length + 1) 0 input.toList = some (scan input) := by
  refine ⟨fun tokens scanned => ⟨tiling_of_scan scanned, ?_⟩, scanWithin_eq_some ?_⟩
  · obtain ⟨lead, ps, -, cut, text, rfl⟩ := exists_cut scanned
    have few := cut.length_le
    rw [length_place, ← String.length_toList, text, List.length_append]
    omega
  · rw [String.length_toList]

/-- A quoted quote, an operator that could have gone on, and blanks of two kinds. -/
theorem scan_tiles_quoted :
    let tokens : List PlacedToken := [⟨.word "a", 1⟩, ⟨.operator "<", 2⟩, ⟨.quoted "'=", 3⟩,
      ⟨.semicolon, 9⟩, ⟨.word "and", 10⟩, ⟨.eof, 14⟩]
    scan " a<'\\'='\u3000;and\t" = .ok tokens ∧
      slices " a<'\\'='\u3000;and\t" tokens = ["a", "<", "'\\'='\u3000", ";", "and\t"] ∧
      Tiling " a<'\\'='\u3000;and\t" tokens ∧
      scanWithin 15 0 " a<'\\'='\u3000;and\t".toList = some (.ok tokens) := by
  intro tokens
  have scanned : scan " a<'\\'='\u3000;and\t" = .ok tokens := by decide +kernel
  obtain ⟨tiles, done⟩ := scan_tiles " a<'\\'='\u3000;and\t"
  exact ⟨scanned, by decide +kernel, (tiles tokens scanned).1, scanned ▸ done⟩

end EntityQuery.Filter
