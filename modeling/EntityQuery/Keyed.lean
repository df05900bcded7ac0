/-!
# Lists kept in order of a key

A finite map from texts is held as the list of its entries, ascending by key, so that the order in
which the entries are shown does not depend on how they came in. Texts are ordered by code point.
-/

namespace EntityQuery.Keyed

variable {α : Type}

def find? (key : String) : List (String × α) → Option α
  | [] => none
  | (k, v) :: rest => if k = key then some v else find? key rest

/-- Puts a value at a key, in place of the one that was there. -/
def insert (key : String) (value : α) : List (String × α) → List (String × α)
  | [] => [(key, value)]
  | (k, v) :: rest =>
    if k = key then (key, value) :: rest
    else if key < k then (key, value) :: (k, v) :: rest
    else (k, v) :: insert key value rest

/-- The keys, in order. -/
def keys (entries : List (String × α)) : List String := entries.map (·.1)

/-- What was put in is what is found, and no other key is touched. -/
theorem find?_insert (key other : String) (value : α) (entries : List (String × α)) :
    find? other (insert key value entries) =
      if key = other then some value else find? other entries := by
  induction entries with
  | nil => simp [insert, find?]
  | cons entry rest ih =>
    obtain ⟨k, v⟩ := entry
    simp only [insert]
    split
    · next h => subst h; by_cases ho : k = other <;> simp [find?, ho]
    · next h =>
      split
      · by_cases ho : key = other <;> simp [find?, ho]
      · simp only [find?, ih]
        by_cases hk : k = other
        · subst hk; simp [Ne.symm h]
        · simp [hk]

/-- The keys are those under which something is found. -/
theorem mem_keys_iff (key : String) (entries : List (String × α)) :
    key ∈ keys entries ↔ (find? key entries).isSome := by
  induction entries with
  | nil => simp [keys, find?]
  | cons entry rest ih =>
    obtain ⟨k, v⟩ := entry
    by_cases h : k = key
    · simp [keys, find?, h]
    · simp [keys, find?, h, Ne.symm h, ← ih]

theorem mem_keys_insert {key other : String} {value : α} {entries : List (String × α)} :
    other ∈ keys (insert key value entries) ↔ other = key ∨ other ∈ keys entries := by
  rw [mem_keys_iff, find?_insert, mem_keys_iff]
  by_cases h : key = other
  · simp [h]
  · simp [h, Ne.symm h]

/-- Keys in ascending order stay so, and none is there twice. -/
theorem pairwise_keys_insert {entries : List (String × α)}
    (sorted : (keys entries).Pairwise (· < ·)) (key : String) (value : α) :
    (keys (insert key value entries)).Pairwise (· < ·) := by
  induction entries with
  | nil => exact List.pairwise_singleton _ key
  | cons entry rest ih =>
    obtain ⟨k, v⟩ := entry
    obtain ⟨above, behind⟩ := List.pairwise_cons.mp sorted
    rw [insert]
    split
    · next same =>
      subst same
      exact sorted
    · next differs =>
      split
      · next before =>
        refine List.pairwise_cons.mpr ⟨fun other mem => ?_, sorted⟩
        obtain rfl | further := List.mem_cons.mp mem
        · exact before
        · exact String.lt_trans before (above other further)
      · next notBefore =>
        have after : k < key := Std.lt_of_le_of_ne (String.not_lt.mp notBefore) differs
        refine List.pairwise_cons.mpr ⟨fun other mem => ?_, ih behind⟩
        obtain rfl | further := mem_keys_insert.mp mem
        · exact after
        · exact above other further

end EntityQuery.Keyed
