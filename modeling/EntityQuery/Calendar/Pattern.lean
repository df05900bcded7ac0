import EntityQuery.Calendar.Fields
import EntityQuery.Text.Blank

/-!
# Date patterns

A pattern says how a written date is read: `%Y-%m-%d` is a year, a month and a day between hyphens.
It is cut into items, each of which takes its part of the text
(`EntityQuery.Calendar.Reading`). A letter behind a percent sign stands for one item or for a whole
layout; blanks in a pattern stand for any run of blanks, and other characters for themselves.

The patterns are the `strftime` patterns of `chrono`. That library is not part of this one, and what
is assumed of it is its documented table of specifiers:

* which letter stands for which field (`numericItem?`), name, fraction or offset, and which for a
  layout that is made of others, such as `%F` for `%Y-%m-%d` (`itemsOf?`);
* the forms of a fraction: `%f` is a plain count of nanoseconds, `%.f` has a point and is optional,
  `%.3f`, `%.6f` and `%.9f` have a point and a fixed width, and `%3f`, `%6f` and `%9f` the width
  alone;
* a mark for padding (`%-d`, `%_d`, `%0d`) is about writing and has no effect on reading, and the
  colons of `%:z` and its kin have none either;
* a specifier that is not in the table, or a percent sign at the end, makes the pattern unusable:
  nothing can be read by it.
-/

namespace EntityQuery.Calendar

open Text

/-- One part of a pattern. -/
inductive Item where
  /-- A character that stands for itself. -/
  | literal (c : Char)
  /-- Any run of blanks, also none. -/
  | blank
  | year
  /-- The year that a standard week belongs to. -/
  | weekYear
  | number (field : NumberField)
  | epochSecond
  | monthName (long : Bool)
  | weekdayName (long : Bool)
  | halfDay
  /-- A point and the digits behind it, or nothing. -/
  | fraction
  /-- A point and exactly so many digits behind it, or nothing. -/
  | fractionOf (places : Nat)
  /-- Exactly so many digits of a fraction, without a point. -/
  | fractionDigits (places : Nat)
  /-- An offset from universal time, in hours and minutes. -/
  | offset
  /-- An offset, the letter Z, or at the end of the text an offset without minutes. -/
  | looseOffset
  /-- An offset, the letter Z, or `UTC`. -/
  | zone
  /-- Everything up to the next blank. -/
  | zoneName
  /-- The mark between a date and a time: the letter T or a single blank. -/
  | timeMark
  deriving DecidableEq

/-- The item of a letter that stands for a number. -/
def numericItem? : Char → Option Item
  | 'Y' => some .year
  | 'G' => some .weekYear
  | 'C' => some (.number .century)
  | 'y' => some (.number .yearOfCentury)
  | 'g' => some (.number .weekYearOfCentury)
  | 'q' => some (.number .quarter)
  | 'm' => some (.number .month)
  | 'U' => some (.number .weekFromSunday)
  | 'W' => some (.number .weekFromMonday)
  | 'V' => some (.number .week)
  | 'd' | 'e' => some (.number .day)
  | 'j' => some (.number .ordinal)
  | 'H' | 'k' => some (.number .hour)
  | 'I' | 'l' => some (.number .hourOfHalf)
  | 'M' => some (.number .minute)
  | 'S' => some (.number .second)
  | 'f' => some (.number .nanosecond)
  | 'u' => some (.number .weekdayFromMonday)
  | 'w' => some (.number .weekdayFromSunday)
  | 's' => some .epochSecond
  | _ => none

/-- The items of a whole timestamp. Blanks may stand in front of every field and mark. -/
def timestampItems : List Item :=
  [.year, .blank, .literal '-', .number .month, .blank, .literal '-', .number .day, .timeMark,
   .number .hour, .blank, .literal ':', .number .minute, .blank, .literal ':', .number .second,
   .fraction, .blank, .zone]

/-- The items that a letter behind a percent sign stands for. -/
def itemsOf? (c : Char) : Option (List Item) :=
  match c with
  | 'b' | 'h' => some [.monthName false]
  | 'B' => some [.monthName true]
  | 'a' => some [.weekdayName false]
  | 'A' => some [.weekdayName true]
  | 'p' | 'P' => some [.halfDay]
  | 'z' => some [.offset]
  | 'Z' => some [.zoneName]
  | '+' => some timestampItems
  | 'n' | 't' => some [.blank]
  | '%' => some [.literal '%']
  | 'F' => some [.year, .literal '-', .number .month, .literal '-', .number .day]
  | 'T' | 'X' =>
    some [.number .hour, .literal ':', .number .minute, .literal ':', .number .second]
  | 'R' => some [.number .hour, .literal ':', .number .minute]
  | 'D' | 'x' =>
    some [.number .month, .literal '/', .number .day, .literal '/', .number .yearOfCentury]
  | 'r' =>
    some [.number .hourOfHalf, .literal ':', .number .minute, .literal ':', .number .second,
      .blank, .halfDay]
  | 'v' => some [.number .day, .literal '-', .monthName false, .literal '-', .year]
  | 'c' =>
    some [.weekdayName false, .blank, .monthName false, .blank, .number .day, .blank,
      .number .hour, .literal ':', .number .minute, .literal ':', .number .second, .blank, .year]
  | c => (numericItem? c).map ([·])

/-- The item of a character that is not part of a specifier. -/
def plainItem (c : Char) : Item := if isBlank c then .blank else .literal c

/-- Cuts a pattern into items; `none` if a specifier is unknown or unfinished. A mark for padding
may stand in front of the letter of a single number, and has no effect on reading; neither has the
number of colons in front of the letter of an offset. -/
def itemsOfPattern? : List Char → Option (List Item)
  | [] => some []
  | '%' :: '.' :: 'f' :: rest => (itemsOfPattern? rest).map (.fraction :: ·)
  | '%' :: '.' :: '3' :: 'f' :: rest => (itemsOfPattern? rest).map (.fractionOf 3 :: ·)
  | '%' :: '.' :: '6' :: 'f' :: rest => (itemsOfPattern? rest).map (.fractionOf 6 :: ·)
  | '%' :: '.' :: '9' :: 'f' :: rest => (itemsOfPattern? rest).map (.fractionOf 9 :: ·)
  | '%' :: '3' :: 'f' :: rest => (itemsOfPattern? rest).map (.fractionDigits 3 :: ·)
  | '%' :: '6' :: 'f' :: rest => (itemsOfPattern? rest).map (.fractionDigits 6 :: ·)
  | '%' :: '9' :: 'f' :: rest => (itemsOfPattern? rest).map (.fractionDigits 9 :: ·)
  | '%' :: '#' :: 'z' :: rest => (itemsOfPattern? rest).map (.looseOffset :: ·)
  | '%' :: ':' :: 'z' :: rest => (itemsOfPattern? rest).map (.offset :: ·)
  | '%' :: ':' :: ':' :: 'z' :: rest => (itemsOfPattern? rest).map (.offset :: ·)
  | '%' :: ':' :: ':' :: ':' :: 'z' :: rest => (itemsOfPattern? rest).map (.offset :: ·)
  | '%' :: '-' :: c :: rest | '%' :: '_' :: c :: rest | '%' :: '0' :: c :: rest =>
    match numericItem? c, itemsOfPattern? rest with
    | some item, some items => some (item :: items)
    | _, _ => none
  | '%' :: c :: rest =>
    match itemsOf? c, itemsOfPattern? rest with
    | some first, some items => some (first ++ items)
    | _, _ => none
  | ['%'] => none
  | c :: rest => (itemsOfPattern? rest).map (plainItem c :: ·)

end EntityQuery.Calendar
