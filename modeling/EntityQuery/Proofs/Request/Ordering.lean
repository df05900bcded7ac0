import EntityQuery.Proofs.Condition.Extension
import EntityQuery.Proofs.Schema.Spelling
import EntityQuery.Request.Ordering
import Mathlib.Data.List.Forall2
import Mathlib.Data.List.Pairwise

/-!
# The keys of an ordering

The entries of an ordering are put into a map from the texts of their selectors to directions, where
a later entry takes the place of an earlier one (`Keyed.find?_insertAll_iff`). So the keys come out
by ascending text, one for each text that is given, with the direction of its last entry.

But what is to be given once is a path, and a path can be spelled in more than one way. Each path
that is given has one key, with the direction of the last entry that names it, exactly if no two
entries spell their selectors alike in different texts (`Config.compileSort_once_iff`).
-/

namespace EntityQuery

/-! ## The last of the entries -/

section

variable {α : Type} {entries : List (String × α)} {entry : String × α} {P Q : String → Prop}
  {value : α}

/-- The value comes with the last of the entries whose text has a property. -/
def LastEntry (entries : List (String × α)) (P : String → Prop) (value : α) : Prop :=
  ∃ before key behind, entries = before ++ (key, value) :: behind ∧ P key ∧
    ∀ entry ∈ behind, ¬P entry.1

/-- The last entry of a list is that of the rest, or the head if the rest has none. -/
theorem lastEntry_cons_iff :
    LastEntry (entry :: entries) P value ↔
      LastEntry entries P value ∨ P entry.1 ∧ entry.2 = value ∧ ∀ entry ∈ entries, ¬P entry.1 := by
  constructor
  · rintro ⟨before, key, behind, parts, last, none⟩
    cases before with
    | nil =>
      obtain ⟨rfl, rfl⟩ := List.cons.inj parts
      exact .inr ⟨last, rfl, none⟩
    | cons first before => exact .inl ⟨before, key, behind, (List.cons.inj parts).2, last, none⟩
  · rintro (⟨before, key, behind, rfl, last, none⟩ | ⟨last, rfl, none⟩)
    · exact ⟨entry :: before, key, behind, rfl, last, none⟩
    · exact ⟨[], entry.1, entries, rfl, last, none⟩

theorem LastEntry.congr (h : LastEntry entries P value)
    (same : ∀ entry ∈ entries, P entry.1 ↔ Q entry.1) : LastEntry entries Q value := by
  obtain ⟨before, key, behind, rfl, last, none⟩ := h
  rw [List.forall_mem_append, List.forall_mem_cons] at same
  exact ⟨before, key, behind, rfl, same.2.1.mp last,
    fun entry mem => mt (same.2.2 entry mem).mpr (none entry mem)⟩

end

namespace Keyed

variable {α : Type} {entries keyed : List (String × α)} {key : String} {value : α}

/-- The map with entries put into it in turn. -/
def insertAll (entries keyed : List (String × α)) : List (String × α) :=
  entries.foldl (fun keyed (key, value) => insert key value keyed) keyed

theorem pairwise_keys_insertAll (entries : List (String × α))
    (sorted : (keys keyed).Pairwise (· < ·)) :
    (keys (insertAll entries keyed)).Pairwise (· < ·) := by
  induction entries generalizing keyed with
  | nil => exact sorted
  | cons entry entries ih => exact ih (pairwise_keys_insert sorted entry.1 entry.2)

/-- Inserting entries adds their keys, each of them once. -/
theorem mem_keys_insertAll :
    key ∈ keys (insertAll entries keyed) ↔ key ∈ keys entries ∨ key ∈ keys keyed := by
  induction entries generalizing keyed with
  | nil => exact (or_iff_right List.not_mem_nil).symm
  | cons entry entries ih =>
    refine ih.trans ?_
    rw [mem_keys_insert, keys, keys, keys, List.map_cons, List.mem_cons, or_left_comm, or_assoc]

/-- What is found at a key came with its last entry, or it was there before if there is none. -/
theorem find?_insertAll_iff :
    find? key (insertAll entries keyed) = some value ↔
      LastEntry entries (· = key) value ∨
        (∀ entry ∈ entries, entry.1 ≠ key) ∧ find? key keyed = some value := by
  induction entries generalizing keyed with
  | nil =>
    have none : ¬LastEntry [] (· = key) value := by
      rintro ⟨before, key, behind, empty, -⟩
      cases before <;> cases empty
    simp [none, insertAll]
  | cons entry entries ih =>
    refine ih.trans ?_
    rw [find?_insert, lastEntry_cons_iff, List.forall_mem_cons, or_assoc]
    by_cases same : entry.1 = key <;> simp [same, and_comm]

/-- In order of their keys, each entry is found. -/
theorem find?_of_mem (sorted : (keys keyed).Pairwise (· < ·)) (mem : (key, value) ∈ keyed) :
    find? key keyed = some value := by
  induction keyed with
  | nil => cases mem
  | cons entry keyed ih =>
    obtain ⟨above, behind⟩ := List.pairwise_cons.mp sorted
    obtain rfl | mem := List.mem_cons.mp mem
    · exact if_pos rfl
    · have less := above key (List.mem_map_of_mem mem)
      rw [find?, if_neg fun same => String.lt_irrefl _ (same ▸ less)]
      exact ih behind mem

end Keyed

/-- Lists that are related item by item are in order in the same way. -/
theorem pairwise_iff_of_forall₂ {α β : Type} {R : α → β → Prop} {S : α → α → Prop}
    {T : β → β → Prop} {xs : List α} {ys : List β} (h : List.Forall₂ R xs ys)
    (same : ∀ x y x' y', R x y → R x' y' → (S x x' ↔ T y y')) :
    xs.Pairwise S ↔ ys.Pairwise T := by
  induction h with
  | nil => exact iff_of_true .nil .nil
  | @cons x y xs ys first rest ih =>
    rw [List.pairwise_cons, List.pairwise_cons, ih]
    refine and_congr_left fun _ => ⟨fun each y' hy' => ?_, fun each x' hx' => ?_⟩
    · obtain ⟨x', hx', related⟩ := exists_of_mem_forall₂ rest.flip hy'
      exact (same x y x' y' first related).mp (each x' hx')
    · obtain ⟨y', hy', related⟩ := exists_of_mem_forall₂ rest hx'
      exact (same x y x' y' first related).mpr (each y' hy')

theorem SpelledAlike.symm {a b : String} (h : SpelledAlike a b) : SpelledAlike b a :=
  h.imp fun _ => And.symm

namespace Config

variable {enums : List EnumType} {entities : List EntityType} {config : Config}
  {root sort : String} {k : OrderKey} {keys : List OrderKey} {entries : List (String × Direction)}

/-- A selector names a path. -/
def Names (config : Config) (root selector : String) (p : Path) : Prop :=
  ∃ leaf, config.resolvePath root selector = .ok (p, leaf)

/-- A selector names one path. -/
theorem Names.unique {p q : Path} (hp : config.Names root selector p)
    (hq : config.Names root selector q) : p = q := by
  obtain ⟨leaf, hp⟩ := hp
  obtain ⟨leaf', hq⟩ := hq
  exact (Prod.mk.inj (Except.ok.inj (hp.symm.trans hq))).1

/-- A key is compiled when its selector names a path that does not fan out. -/
theorem compileKey_eq_ok {entry : String × Direction} :
    config.compileKey root entry = .ok k ↔
      config.Names root entry.1 k.path ∧ k.path.isMultiValued = false ∧ entry.2 = k.direction := by
  constructor
  · intro h
    obtain ⟨⟨p, leaf⟩, hp, h⟩ := bind_eq_ok.mp h
    dsimp only at h
    split at h
    · cases h
    · next single =>
      cases h
      exact ⟨⟨leaf, hp⟩, Bool.eq_false_iff.mpr single, rfl⟩
  · rintro ⟨⟨leaf, hp⟩, single, direction⟩
    refine bind_eq_ok.mpr ⟨_, hp, ?_⟩
    dsimp only
    rw [if_neg (Bool.eq_false_iff.mp single), direction]
    rfl

/-- An ordering is compiled when all of its entries are read, and all that are left of them after
repetitions are compiled. -/
theorem compileSort_eq_ok :
    config.compileSort root sort = .ok keys ↔
      ∃ entries, (sortEntries sort).mapM readSortEntry = .ok entries ∧
        List.Forall₂ (fun entry k => config.compileKey root entry = .ok k)
          (Keyed.insertAll entries []) keys := by
  rw [compileSort, bind_eq_ok]
  simp only [mapM_eq_ok]
  rfl

/-- The keys of an ordering stand for the texts of its selectors in order, each with the direction
of its last entry. -/
structure KeysOf (config : Config) (root : String) (entries : List (String × Direction))
    (selectors : List String) (keys : List OrderKey) : Prop where
  sorted : selectors.Pairwise (· < ·)
  mem_iff : ∀ selector, selector ∈ selectors ↔ ∃ d, (selector, d) ∈ entries
  each : List.Forall₂ (fun selector k => config.Names root selector k.path ∧
    LastEntry entries (· = selector) k.direction) selectors keys

/-- The keys of an ordering, each with a selector that it came from. -/
theorem exists_keysOf (h : config.compileSort root sort = .ok keys) :
    ∃ entries selectors, (sortEntries sort).mapM readSortEntry = .ok entries ∧
      config.KeysOf root entries selectors keys := by
  obtain ⟨entries, read, compiled⟩ := compileSort_eq_ok.mp h
  have sorted : (Keyed.keys (Keyed.insertAll entries [])).Pairwise (· < ·) :=
    Keyed.pairwise_keys_insertAll entries .nil
  refine ⟨entries, _, read, sorted, fun selector => ?_, ?_⟩
  · rw [Keyed.mem_keys_insertAll, or_iff_left (show selector ∉ Keyed.keys [] from List.not_mem_nil),
      Keyed.keys, List.mem_map]
    constructor
    · rintro ⟨entry, mem, rfl⟩
      exact ⟨entry.2, mem⟩
    · rintro ⟨d, mem⟩
      exact ⟨_, mem, rfl⟩
  · have last : ∀ entry ∈ Keyed.insertAll entries [],
        LastEntry entries (· = entry.1) entry.2 := by
      intro entry mem
      obtain last | ⟨-, there⟩ := Keyed.find?_insertAll_iff.mp (Keyed.find?_of_mem sorted mem)
      · exact last
      · cases there
    rw [Keyed.keys, List.forall₂_map_left_iff]
    refine ((List.forall₂_and_left _ _).mpr ⟨last, compiled⟩).imp fun entry k both => ?_
    obtain ⟨last, key⟩ := both
    obtain ⟨names, -, direction⟩ := compileKey_eq_ok.mp key
    exact ⟨names, direction ▸ last⟩

namespace KeysOf

variable {selectors : List String} (h : config.KeysOf root entries selectors keys)
include h

/-- The paths of the keys are those that the entries name. -/
theorem exists_path_iff (p : Path) :
    (∃ k ∈ keys, k.path = p) ↔ ∃ entry ∈ entries, config.Names root entry.1 p := by
  constructor
  · rintro ⟨k, hk, rfl⟩
    obtain ⟨selector, mem, names, -⟩ := exists_of_mem_forall₂ h.each.flip hk
    obtain ⟨d, entry⟩ := (h.mem_iff selector).mp mem
    exact ⟨_, entry, names⟩
  · rintro ⟨⟨selector, d⟩, entry, names⟩
    obtain ⟨k, hk, names', -⟩ := exists_of_mem_forall₂ h.each ((h.mem_iff selector).mpr ⟨d, entry⟩)
    exact ⟨k, hk, names'.unique names⟩

variable (built : Catalog.build enums entities = .ok config.catalog)
  (registry : config.registry = .withAdded [])
include built registry

/-- The keys have different paths if selectors that are spelled alike are the same. -/
theorem pairwise_path_iff :
    keys.Pairwise (·.path ≠ ·.path) ↔
      ∀ a ∈ entries, ∀ b ∈ entries, SpelledAlike a.1 b.1 → a.1 = b.1 := by
  have apart : selectors.Pairwise (fun a b => ¬SpelledAlike a b) ↔
      keys.Pairwise (·.path ≠ ·.path) :=
    pairwise_iff_of_forall₂ h.each fun a k b k' ⟨⟨_, ha⟩, _⟩ ⟨⟨_, hb⟩, _⟩ =>
      not_congr (path_eq_iff built registry ha hb).symm
  rw [← apart]
  constructor
  · intro pairwise a ha b hb alike
    by_contra differ
    have symmetric : Std.Symm fun a b => ¬SpelledAlike a b := ⟨fun _ _ => mt SpelledAlike.symm⟩
    exact pairwise.forall ((h.mem_iff _).mpr ⟨_, ha⟩) ((h.mem_iff _).mpr ⟨_, hb⟩) differ alike
  · intro same
    refine h.sorted.imp_of_mem fun {a b} ha hb less alike => ?_
    obtain ⟨d, ha⟩ := (h.mem_iff a).mp ha
    obtain ⟨d', hb⟩ := (h.mem_iff b).mp hb
    have equal : a = b := same _ ha _ hb alike
    exact String.lt_irrefl b (equal ▸ less)

/-- Then a key has the direction of the last entry that names its path, in whatever spelling. -/
theorem lastEntry (same : ∀ a ∈ entries, ∀ b ∈ entries, SpelledAlike a.1 b.1 → a.1 = b.1) :
    ∀ k ∈ keys, LastEntry entries (config.Names root · k.path) k.direction := by
  intro k hk
  obtain ⟨selector, mem, names, last⟩ := exists_of_mem_forall₂ h.each.flip hk
  obtain ⟨d, there⟩ := (h.mem_iff selector).mp mem
  refine last.congr fun entry hentry => ⟨fun equal => equal ▸ names, fun names' => ?_⟩
  obtain ⟨_, path⟩ := names
  obtain ⟨_, path'⟩ := names'
  exact same _ hentry _ there ((path_eq_iff built registry path' path).mp rfl)

end KeysOf

/-- Each path has one key exactly if it is spelled in one way. With the built-in handlers, let an
ordering of a root of a built catalog compile. Its keys are by ascending selector, one for each
selector that has an entry, and with the direction of its last entry. Their paths are those that the
entries name. They are pairwise different, each with the direction of the last entry that names it,
exactly if selectors that are spelled alike are the same. -/
theorem compileSort_once_iff {c : Catalog} {pattern : Option String}
    {operators : List ComparisonOperator} (built : Catalog.build enums entities = .ok c)
    (configured : build c pattern operators [] = .ok config)
    (h : config.compileSort root sort = .ok keys) :
    ∃ entries, (sortEntries sort).mapM readSortEntry = .ok entries ∧
      (∃ selectors, config.KeysOf root entries selectors keys) ∧
      (∀ p, (∃ k ∈ keys, k.path = p) ↔ ∃ entry ∈ entries, config.Names root entry.1 p) ∧
      ((keys.Pairwise (·.path ≠ ·.path) ∧
          ∀ k ∈ keys, LastEntry entries (config.Names root · k.path) k.direction) ↔
        ∀ a ∈ entries, ∀ b ∈ entries, SpelledAlike a.1 b.1 → a.1 = b.1) := by
  obtain ⟨entries, selectors, read, of⟩ := exists_keysOf h
  obtain ⟨-, rfl⟩ := build_eq_ok.mp configured
  have distinct := of.pairwise_path_iff built rfl
  exact ⟨entries, read, ⟨selectors, of⟩, of.exists_path_iff,
    fun once => distinct.mp once.1, fun same => ⟨distinct.mpr same, of.lastEntry built rfl same⟩⟩

/-- The name of a car is given twice and has one key. -/
theorem compileSort_once_iff_name :
    ∃ keys, (standard Sample.catalog).compileSort "Car" "name.asc,engine.name.asc,name.desc" =
        .ok keys ∧
      keys.map OrderKey.text = ["car.engine.name ASC", "car.name DESC"] ∧
      keys.Pairwise (·.path ≠ ·.path) := by
  let ordering := "name.asc,engine.name.asc,name.desc"
  have compiled : ((standard Sample.catalog).compileSort "Car" ordering).map
      (·.map OrderKey.text) = .ok ["car.engine.name ASC", "car.name DESC"] := by decide +kernel
  have read : (sortEntries ordering).mapM readSortEntry =
      .ok [("name", .ascending), ("engine.name", .ascending), ("name", .descending)] := by
    decide +kernel
  obtain ⟨keys, hkeys, texts⟩ := map_eq_ok.mp compiled
  obtain ⟨entries, read', -, -, once⟩ :=
    compileSort_once_iff Sample.build_eq_catalog (build_eq_standard _) hkeys
  have given := Except.ok.inj (read.symm.trans read')
  refine ⟨keys, hkeys, texts, (once.mpr fun a ha b hb alike => ?_).1⟩
  obtain ⟨segments, first, second⟩ := alike
  -- here selectors of as many segments are the same
  have same : ∀ a ∈ entries, ∀ b ∈ entries, (a.1.toList.splitOn '.').length =
      (b.1.toList.splitOn '.').length → a.1 = b.1 := by
    rw [← given]
    decide +kernel
  exact same a ha b hb (first.length_eq.trans second.length_eq.symm)

/-- The first screw is given in two spellings and has two keys. -/
theorem compileSort_two_spellings :
    let path : Path := ⟨"car", [.property "screws", .index 0, .property "size"], .numeric⟩
    (standard Sample.catalog).compileSort "Car" "screws[0].size.asc,screws[00].size.desc" =
      .ok [⟨path, .descending⟩, ⟨path, .ascending⟩] := by
  decide +kernel

end Config

end EntityQuery
