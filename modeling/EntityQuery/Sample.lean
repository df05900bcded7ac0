import EntityQuery.Schema.Declaration
import EntityQuery.Store

/-!
# Sample data

A small catalog of cars, with all that queries care about: inherited fields, a related entity,
collections of entities and an enumeration; and records of it, made from a seed.
-/

namespace EntityQuery.Sample

def screwTypes : List String := ["PHILLIPS", "FLAT", "TORX", "HEX"]

def enums : List EnumType := [⟨"ScrewType", screwTypes⟩]

def entities : List EntityType :=
  let i64 := FieldType.numeric (.integral .w64)
  let screws : Field := ⟨"screws", .collection .list (.entity "Screw")⟩
  [⟨"BaseEntity", none, [⟨"id", i64⟩]⟩,
   ⟨"Car", some "BaseEntity",
    [⟨"name", .string⟩, ⟨"description", .string⟩, ⟨"active", .boolean⟩, ⟨"mfgdt", .dateTime⟩,
     ⟨"engine", .entity "Engine"⟩, screws]⟩,
   ⟨"Engine", some "BaseEntity", [⟨"name", .string⟩, ⟨"description", .string⟩, screws]⟩,
   ⟨"Screw", some "BaseEntity",
    [⟨"name", .string⟩, ⟨"size", i64⟩, ⟨"description", .string⟩,
     ⟨"screwType", .enumeration "ScrewType"⟩]⟩]

def catalog : Catalog := ⟨enums, entities⟩

/-- The declarations make a catalog. -/
theorem build_eq_catalog : Catalog.build enums entities = .ok catalog := by rfl

/-! ## Records -/

/-- The state of the generator and the number that the next screw gets. -/
structure Supply where
  state : UInt64
  nextScrew : Nat

/-- Draws a number below `n`. -/
def draw (n : Nat) (s : Supply) : Nat × Supply :=
  let state := s.state * 6364136223846793005 + 1442695040888963407
  ((state >>> 33).toNat % n, { s with state })

/-- A 64-bit integer; one that is too large is the greatest. -/
def int64 (n : Nat) : Value :=
  match SizedInt.ofInt? .w64 n with
  | some k => .integer k
  | none => .integer ⟨.w64, IntWidth.w64.highest, by decide, by decide⟩

/-- A text with a number behind it. -/
def numbered (text : String) (n : Nat) : Value := .text (text ++ Numeral.padded 1 n)

def screw (s : Supply) : Value × Supply :=
  let id := s.nextScrew
  let (kind, s) := draw screwTypes.length s
  let (name, s) := draw 100 s
  let (size, s) := draw 20 s
  (.record (Record.ofFields "Screw"
    [("id", int64 id), ("name", numbered "Screw name " (name + 1)), ("size", int64 (size + 1)),
     ("description", numbered "Screw description " id),
     ("screwType", .constant (screwTypes.getD kind ""))]),
    { s with nextScrew := id + 1 })

/-- Makes so many screws. -/
def screwList : Nat → Supply → List Value × Supply
  | 0, s => ([], s)
  | n + 1, s =>
    let (first, s) := screw s
    let (rest, s) := screwList n s
    (first :: rest, s)

/-- Makes one to three screws. -/
def screws (s : Supply) : Value × Supply :=
  let (n, s) := draw 3 s
  let (items, s) := screwList (n + 1) s
  (.list items, s)

/-- The first day that cars are made on, counted from 1970-01-01. -/
def firstDay : Int := 18262

/-- The start of a day, so many days behind the first one. -/
def day (n : Nat) : Value :=
  match Date.ofDayNumber? (firstDay + n) with
  | some d => .dateTime (.startOf d)
  | none => .null

/-- Makes the car of a number. -/
def car (id : Nat) (s : Supply) : Record × Supply :=
  let (text, s) := draw 100 s
  let (engineScrews, s) := screws s
  let engine := Record.ofFields "Engine"
    [("id", int64 id), ("name", numbered "Engine" id),
     ("description", numbered "Description engine " (text + 1)), ("screws", engineScrews)]
  let (text, s) := draw 100 s
  let (active, s) := draw 2 s
  let (carScrews, s) := screws s
  let (made, s) := draw 3650 s
  (Record.ofFields "Car"
    [("id", int64 id), ("name", numbered "Car" id),
     ("description", numbered "Description car " (text + 1)), ("active", .boolean (active = 1)),
     ("engine", .record engine), ("screws", carScrews), ("mfgdt", day made)], s)

/-- Makes cars from a number on. -/
def carsFrom (id : Nat) (s : Supply) : Nat → List Record
  | 0 => []
  | n + 1 =>
    let (c, s) := car id s
    c :: carsFrom (id + 1) s n

/-- So many cars, numbered from one; equal seeds make equal cars. -/
def cars (count : Nat) (seed : UInt64) : List Record := carsFrom 1 ⟨seed, 1⟩ count

end EntityQuery.Sample
