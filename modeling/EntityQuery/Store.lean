import EntityQuery.Value.Basic

/-!
# The store of records

The records of all entity types in the order in which they were inserted. The table of an entity is
the part of them that has its name as type.
-/

namespace EntityQuery

/-- The records that queries run over, oldest first. There are never more of them than a number of
64 bits can count. -/
structure Store where
  records : List Record
  length_lt : records.length < UInt64.size

namespace Store

/-- A store without records. -/
def empty : Store := ⟨[], by decide⟩

/-- The records of a list, as far as there is room for them. -/
def ofRecords (records : List Record) : Store :=
  ⟨records.take (UInt64.size - 1), by
    have : 0 < UInt64.size := by decide
    simp only [List.length_take]
    omega⟩

/-- Adds a record behind all others, if there is room for it. -/
def insert (s : Store) (r : Record) : Store :=
  if h : s.records.length + 1 < UInt64.size then ⟨s.records ++ [r], by simpa using h⟩ else s

/-- The table of an entity, in the order of insertion. -/
def scan (s : Store) (entity : String) : List Record := s.records.filter (·.type = entity)

/-- The number of records of an entity. -/
def count (s : Store) (entity : String) : Nat := (s.scan entity).length

end Store

end EntityQuery
