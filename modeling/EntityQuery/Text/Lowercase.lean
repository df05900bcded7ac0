import EntityQuery.Text.CaseTable

/-!
# Lower case

The full Unicode lower-case mapping. One character, capital I with a dot above, becomes two. A
capital sigma becomes the final form where a word ends: behind a cased character and not in front
of one, the case-ignorable characters between them passed over. All other characters map on their
own.
-/

namespace EntityQuery.Text

/-- The lower-case form of a character, without regard to its neighbours. -/
def lowerChar (c : Char) : List Char :=
  if c.toNat = 0x130 then ['i', Char.ofNat 0x307]
  else
    match lowercaseShifts.find? (·.covers c.toNat) with
    | some shift => [Char.ofNat (c.toNat + shift.shift).toNat]
    | none => [c]

/-- Whether the nearest character that is not case-ignorable is a cased one. -/
def meetsCased (cs : List Char) : Bool :=
  match cs.dropWhile isCaseIgnorable with
  | [] => false
  | c :: _ => isCased c

/-- Lower-cases what follows `before`, which is held in reverse. -/
def lowerAfter (before : List Char) : List Char → List Char
  | [] => []
  | c :: rest =>
    let lowered :=
      if c = 'Σ' then
        if meetsCased before && !meetsCased rest then ['ς'] else ['σ']
      else lowerChar c
    lowered ++ lowerAfter (c :: before) rest

def lowercase (s : String) : String := String.ofList (lowerAfter [] s.toList)

end EntityQuery.Text
