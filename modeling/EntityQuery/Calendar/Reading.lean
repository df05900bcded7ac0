import EntityQuery.Calendar.Pattern

/-!
# Reading by a pattern

The items of a pattern take their parts off the front of a text, one behind the other, and note in
`Fields` what they read. Nothing may be left of the text in the end.

How much an item takes is what `chrono` documents for its parser, and is assumed here as it stands
there:

* a number may have blanks in front of it whatever the padding of its specifier is, and then takes
  at least one digit and no more than its field is wide, so `%H%M` can read `2019`; a year has four,
  and any number of them behind a sign, and a count of seconds has no bound;
* the names of months and weekdays and the halves of a day are read in any case, a name by its first
  three letters and, where its specifier is that of long names, by the rest if all of it is there;
* a fraction of a second is optional where its specifier has a point, and digits behind the ninth
  are dropped;
* an offset may have a colon between its hours and minutes whether the specifier has one or not;
* blanks match any run of blanks, also an empty one, and other characters themselves.
-/

namespace EntityQuery.Calendar

open Numeral Text

/-- The names of the months: the first three letters and the rest. -/
def monthNames : List (String × String) :=
  [("jan", "uary"), ("feb", "ruary"), ("mar", "ch"), ("apr", "il"), ("may", ""), ("jun", "e"),
   ("jul", "y"), ("aug", "ust"), ("sep", "tember"), ("oct", "ober"), ("nov", "ember"),
   ("dec", "ember")]

/-- The names of the days of the week: the first three letters and the rest. -/
def weekdayNames : List (String × String) :=
  [("mon", "day"), ("tue", "sday"), ("wed", "nesday"), ("thu", "rsday"), ("fri", "day"),
   ("sat", "urday"), ("sun", "day")]

/-- What is behind a word, if the text starts with it in any case. -/
def afterWord? : List Char → List Char → Option (List Char)
  | [], cs => some cs
  | w :: ws, c :: cs => if c.toLower = w then afterWord? ws cs else none
  | _ :: _, [] => none

/-- Reads one of the names in any case. Where long names are allowed the rest of the name is read
too, if it is there. The result counts from `index`. -/
def readName (long : Bool) (index : Nat) :
    List (String × String) → List Char → Option (Nat × List Char)
  | [], _ => none
  | (short, tail) :: names, cs =>
    match afterWord? short.toList cs with
    | none => readName long (index + 1) names cs
    | some rest =>
      some (index, if long then (afterWord? tail.toList rest).getD rest else rest)

/-- Whether a character is one of the ten ASCII digits. -/
def isDecimalDigit (c : Char) : Bool := (digit? c).isSome

/-- The longest run of digits in front, of at most so many. -/
def takeDigits : Nat → List Char → List Char × List Char
  | 0, cs => ([], cs)
  | _, [] => ([], [])
  | width + 1, c :: cs =>
    if isDecimalDigit c then
      let (digits, rest) := takeDigits width cs
      (c :: digits, rest)
    else ([], c :: cs)

/-- A number of at least one and at most so many digits. -/
def readNumber (width : Nat) (cs : List Char) : Option (Nat × List Char) :=
  match takeDigits width cs with
  | ([], _) => none
  | (digits, rest) => some (digitsValue digits, rest)

/-- A number of exactly so many digits. -/
def readFixed (width : Nat) (cs : List Char) : Option (Nat × List Char) :=
  let (digits, rest) := takeDigits width cs
  if digits.length = width then some (digitsValue digits, rest) else none

/-- A year of up to four digits, or of any number of them behind a sign. -/
def readYear : List Char → Option (Int × List Char)
  | '-' :: cs => (readNumber cs.length cs).map fun (n, rest) => (-Int.ofNat n, rest)
  | '+' :: cs => (readNumber cs.length cs).map fun (n, rest) => (Int.ofNat n, rest)
  | cs => (readNumber 4 cs).map fun (n, rest) => (Int.ofNat n, rest)

/-- The nanoseconds of a fraction of a second; digits past the ninth are read and dropped. -/
def readNanoseconds (cs : List Char) : Option (Nat × List Char) :=
  match takeDigits 9 cs with
  | ([], _) => none
  | (digits, rest) =>
    some (digitsValue digits * Nat.pow 10 (9 - digits.length), rest.dropWhile isDecimalDigit)

/-- The minutes of an offset from universal time; `colon` reads what may stand in its middle. With
`mayEnd` the text may end there, which leaves the hours. -/
def readOffset (colon : List Char → Option (List Char)) (mayEnd : Bool) (cs : List Char) :
    Option (Int × List Char) := do
  let (sign, rest) ←
    match cs with
    | '+' :: rest => some ((1 : Int), rest)
    | '-' :: rest | '−' :: rest => some (-1, rest)
    | _ => none
  let (hours, rest) ← readFixed 2 rest
  let rest ← colon rest
  if mayEnd ∧ rest = [] then some (sign * Int.ofNat (hours * 60), [])
  else
    let (minutes, rest) ← readFixed 2 rest
    if minutes < 60 then some (sign * Int.ofNat (hours * 60 + minutes), rest) else none

/-- Skips any colons and blanks. -/
def skipColons (cs : List Char) : Option (List Char) :=
  some (cs.dropWhile fun c => c = ':' || isBlank c)

/-- The minutes of an offset, for which the letter Z may stand. -/
def readOffsetOrZ (colon : List Char → Option (List Char)) (mayEnd : Bool) :
    List Char → Option (Int × List Char)
  | 'Z' :: rest | 'z' :: rest => some (0, rest)
  | cs => readOffset colon mayEnd cs

/-- The minutes of an offset, for which the letter Z or `UTC` may stand. -/
def readZone (cs : List Char) : Option (Int × List Char) :=
  match afterWord? "utc".toList cs with
  | some rest => some (0, rest)
  | none => readOffsetOrZ skipColons false cs

/-- Lets an item take its part off the front of the text. -/
def Item.read (item : Item) (f : Fields) (cs : List Char) : Option (Fields × List Char) :=
  match item with
  | .literal c =>
    match cs with
    | d :: rest => if d = c then some (f, rest) else none
    | [] => none
  | .blank => some (f, cs.dropWhile isBlank)
  | .year => do
    let (n, rest) ← readYear (cs.dropWhile isBlank)
    let f ← f.withYear n
    return (f, rest)
  | .weekYear => do
    let (n, rest) ← readYear (cs.dropWhile isBlank)
    let f ← f.withWeekYear n
    return (f, rest)
  | .number field => do
    let (n, rest) ← readNumber field.width (cs.dropWhile isBlank)
    let f ← f.withNumber field n
    return (f, rest)
  | .epochSecond => do
    -- as many digits as there are
    let (n, rest) ← readNumber cs.length (cs.dropWhile isBlank)
    let f ← f.withCount n
    return (f, rest)
  | .monthName long => do
    let (n, rest) ← readName long 1 monthNames cs
    let f ← f.withNumber .month n
    return (f, rest)
  | .weekdayName long => do
    let (n, rest) ← readName long 1 weekdayNames cs
    let f ← f.withNumber .weekdayFromMonday n
    return (f, rest)
  | .halfDay => do
    let (n, rest) ← readName false 0 [("am", ""), ("pm", "")] cs
    let half ← agree f.halfDay n
    return ({ f with halfDay := half }, rest)
  | .fraction =>
    match cs with
    | '.' :: rest => do
      let (n, rest) ← readNanoseconds rest
      let f ← f.withNumber .nanosecond n
      return (f, rest)
    | _ => some (f, cs)
  | .fractionOf places =>
    match cs with
    | '.' :: rest => do
      let (n, rest) ← readFixed places rest
      let f ← f.withNumber .nanosecond (n * Nat.pow 10 (9 - places))
      return (f, rest)
    | _ => some (f, cs)
  | .fractionDigits places => do
    let (n, rest) ← readFixed places cs
    let f ← f.withNumber .nanosecond (n * Nat.pow 10 (9 - places))
    return (f, rest)
  | .offset => do
    let (n, rest) ← readOffset skipColons false (cs.dropWhile isBlank)
    let f ← f.withOffset n
    return (f, rest)
  | .looseOffset => do
    let (n, rest) ← readOffsetOrZ skipColons true (cs.dropWhile isBlank)
    let f ← f.withOffset n
    return (f, rest)
  | .zone => do
    let (n, rest) ← readZone cs
    let f ← f.withOffset n
    return (f, rest)
  -- the name of a zone says nothing about the offset, so it is only passed over
  | .zoneName => some (f, cs.dropWhile (!isBlank ·))
  | .timeMark =>
    match cs with
    | 'T' :: rest | 't' :: rest | ' ' :: rest => some (f, rest)
    | _ => none

/-- Reads the whole text by the items. -/
def readItems : List Item → Fields → List Char → Option Fields
  | [], f, cs => if cs = [] then some f else none
  | item :: items, f, cs =>
    match item.read f cs with
    | some (g, rest) => readItems items g rest
    | none => none

/-- Reads the whole text by a pattern. -/
def readPattern (pattern : String) (cs : List Char) : Option Fields :=
  (itemsOfPattern? pattern.toList).bind fun items => readItems items .empty cs

end EntityQuery.Calendar
