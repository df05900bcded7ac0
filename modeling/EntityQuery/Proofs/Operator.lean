import EntityQuery.Handler.Predicate
import EntityQuery.Operator

/-!
# Symbols of operators

No symbol belongs to two built-in operators (`Builtin.eq_of_mem_symbols`), so a built-in operator
counts as no other, and a table of rules is read by it as a table of names. A table of aliases has
the operator that was merged last (`AliasTable.lookup?_merge`), and the built-in table therefore
the one operator of each symbol (`AliasTable.lookup?_builtin`).
-/

namespace EntityQuery

variable {symbol : String}

namespace Builtin

theorem mem_all (b : Builtin) : b ∈ all := by
  cases b <;> decide

/-- The first operator that has a symbol is the one that it was taken from. -/
theorem find?_symbol {b : Builtin} (h : symbol ∈ b.symbols) :
    all.find? (symbol ∈ ·.symbols) = some b := by
  have first : ∀ b ∈ all, ∀ symbol ∈ b.symbols, all.find? (symbol ∈ ·.symbols) = some b := by
    decide +kernel
  exact first b b.mem_all symbol h

/-- A symbol belongs to one built-in operator. -/
theorem eq_of_mem_symbols {a b : Builtin} (ha : symbol ∈ a.symbols) (hb : symbol ∈ b.symbols) :
    a = b :=
  Option.some.inj ((find?_symbol ha).symm.trans (find?_symbol hb))

/-- Every built-in operator can be written. -/
theorem symbols_ne_nil (b : Builtin) : b.symbols ≠ [] := by
  cases b <;> exact List.cons_ne_nil _ _

/-- A built-in operator counts as itself and as no other one. -/
theorem operator_is_iff {a b : Builtin} : a.operator.is b ↔ b = a := by
  rw [ComparisonOperator.is, List.any_eq_true]
  constructor
  · rintro ⟨symbol, ha, hb⟩
    exact eq_of_mem_symbols (List.contains_iff_mem.mp hb) ha
  · rintro rfl
    obtain ⟨symbol, h⟩ := List.exists_mem_of_ne_nil _ b.symbols_ne_nil
    exact ⟨symbol, h, List.contains_iff_mem.mpr h⟩

end Builtin

/-- The rule of a built-in operator is the first that is made for it. -/
theorem findRule?_operator (rules : List Rule) (b : Builtin) :
    findRule? rules b.operator = rules.find? fun rule => rule.1 = b := by
  have same : ∀ rule : Rule, b.operator.is rule.1 = decide (rule.1 = b) := fun rule => by
    rw [Bool.eq_iff_iff, Builtin.operator_is_iff, decide_eq_true_iff]
  simp only [findRule?, same]

namespace AliasTable

/-- An added operator is found by its symbols, and other symbols are looked up as before. -/
theorem lookup?_add (t : AliasTable) (op : ComparisonOperator) (symbol : String) :
    (t.add op).lookup? symbol = if symbol ∈ op.symbols then some op else t.lookup? symbol := by
  have along : ∀ (symbols : List String) (entries : List (String × ComparisonOperator)),
      Keyed.find? symbol (symbols.foldl (fun entries s => Keyed.insert s op entries) entries) =
        if symbol ∈ symbols then some op else Keyed.find? symbol entries := by
    intro symbols
    induction symbols with
    | nil => exact fun entries => rfl
    | cons s symbols ih =>
      intro entries
      rw [List.foldl_cons, ih, Keyed.find?_insert]
      by_cases hs : symbol = s
      · simp [hs]
      · simp [hs, Ne.symm hs]
  exact along op.symbols t.entries

/-- Of the operators that are merged the last one with the symbol counts, and the table as it was
if there is none. -/
theorem lookup?_merge (t : AliasTable) (ops : List ComparisonOperator) (symbol : String) :
    (t.merge ops).lookup? symbol =
      (ops.reverse.find? (symbol ∈ ·.symbols)).or (t.lookup? symbol) := by
  induction ops generalizing t with
  | nil => rfl
  | cons op ops ih =>
    have step : t.merge (op :: ops) = (t.add op).merge ops := rfl
    rw [step, ih, lookup?_add, List.reverse_cons, List.find?_append, Option.or_assoc]
    by_cases h : symbol ∈ op.symbols
    · simp [h]
    · simp [h]

/-- A symbol of a built-in operator stands for it. -/
theorem lookup?_builtin {b : Builtin} (h : symbol ∈ b.symbols) :
    builtin.lookup? symbol = some b.operator := by
  rw [builtin, lookup?_merge]
  cases found : (Builtin.all.map Builtin.operator).reverse.find? (symbol ∈ ·.symbols) with
  | none =>
    have listed : b.operator ∈ (Builtin.all.map Builtin.operator).reverse :=
      List.mem_reverse.mpr (List.mem_map_of_mem b.mem_all)
    exact absurd (decide_eq_true h) (List.find?_eq_none.mp found _ listed)
  | some op =>
    have owns := List.find?_some found
    rw [decide_eq_true_iff] at owns
    obtain ⟨b', -, rfl⟩ := List.mem_map.mp (List.mem_reverse.mp (List.mem_of_find?_eq_some found))
    rw [Builtin.eq_of_mem_symbols owns h, Option.some_or]

end AliasTable

end EntityQuery
