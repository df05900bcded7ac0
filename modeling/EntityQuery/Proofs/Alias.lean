import EntityQuery.Config
import EntityQuery.Proofs.Operator

/-!
# Aliases after any number of merges

Operators may be merged into the table of aliases again and again, with lists that repeat, collide
or hold nothing. What a symbol stands for is then told by the history as a whole (`StandsFor`): the
operator that was merged last of those that have the symbol, else the built-in operator that owns
it, else nothing.

Every single step keeps the table `Sound`: a symbol stands for an operator that has it, and the
symbols are listed in order, each once. An operator that takes over a symbol of a built-in one
therefore counts as the built-in one, for what makes two operators count as the same is a symbol
that they share.
-/

namespace EntityQuery

variable {symbol : String} {op : ComparisonOperator} {b : Builtin}

namespace ComparisonOperator

/-- An operator counts as the built-in operator whose symbol it has. -/
theorem is_of_mem (h : symbol ∈ op.symbols) (hb : symbol ∈ b.symbols) : op.is b :=
  List.any_eq_true.mpr ⟨symbol, h, List.contains_iff_mem.mpr hb⟩

/-- A common symbol makes two operators the same one, whatever else they are called. This is what
lets a lookup by symbol be read as "the operator with this symbol". -/
theorem same_of_mem {other : ComparisonOperator} (h : symbol ∈ op.symbols)
    (ho : symbol ∈ other.symbols) : op.same other :=
  List.any_eq_true.mpr ⟨symbol, h, List.contains_iff_mem.mpr ho⟩

end ComparisonOperator

namespace AliasTable

/-- What a table of aliases always is. -/
structure Sound (t : AliasTable) : Prop where
  /-- The symbols are in order, and none is there twice. -/
  sorted : t.symbols.Pairwise (· < ·)
  /-- A symbol stands for an operator that has it. -/
  carries : ∀ {symbol op}, t.lookup? symbol = some op → symbol ∈ op.symbols

variable {t : AliasTable}

theorem Sound.empty : Sound ⟨[]⟩ := ⟨.nil, nofun⟩

/-- An operator that is added takes over its own spellings and leaves all others as they were. So
the table stays in order, and what is found for a spelling still has it. -/
theorem Sound.add (h : t.Sound) (op : ComparisonOperator) : (t.add op).Sound := by
  refine ⟨?_, fun {symbol other} found => ?_⟩
  · have along : ∀ (symbols : List String) (entries : List (String × ComparisonOperator)),
        (Keyed.keys entries).Pairwise (· < ·) →
        (Keyed.keys (symbols.foldl (fun entries s => Keyed.insert s op entries) entries)).Pairwise
          (· < ·) := by
      intro symbols
      induction symbols with
      | nil => exact fun entries sorted => sorted
      | cons s symbols ih =>
        exact fun entries sorted => ih _ (Keyed.pairwise_keys_insert sorted s op)
    exact along op.symbols t.entries h.sorted
  · rw [lookup?_add] at found
    split at found
    · next has =>
      cases found
      exact has
    · exact h.carries found

/-- Merging keeps a table sound. Nothing is asked of the operators: what shares a symbol with an
older one takes that symbol over. -/
theorem Sound.merge (h : t.Sound) (ops : List ComparisonOperator) : (t.merge ops).Sound := by
  induction ops generalizing t with
  | nil => exact h
  | cons op ops ih => exact ih (h.add op)

theorem Sound.builtin : Sound builtin := Sound.empty.merge _

/-- A table contains the symbols that can be looked up, and no others. -/
theorem contains_eq_true_iff : t.contains symbol ↔ ∃ op, t.lookup? symbol = some op :=
  Option.isSome_iff_exists

/-- The listed symbols are those that can be looked up. So the list, the test and the lookup
agree. -/
theorem mem_symbols_iff : symbol ∈ t.symbols ↔ ∃ op, t.lookup? symbol = some op :=
  (Keyed.mem_keys_iff symbol t.entries).trans Option.isSome_iff_exists

/-! ## Histories -/

/-- The built-in table after lists of operators were merged into it, one after the other. -/
def history (runs : List (List ComparisonOperator)) : AliasTable := runs.foldl merge builtin

/-- A run of merges keeps a table sound, however many there are and in whatever order they come. -/
theorem Sound.mergeAll (h : t.Sound) (runs : List (List ComparisonOperator)) :
    (runs.foldl AliasTable.merge t).Sound := by
  induction runs generalizing t with
  | nil => exact h
  | cons ops runs ih => exact ih (h.merge ops)

/-- Merging list by list is merging all operators in turn. -/
theorem history_eq_merge (runs : List (List ComparisonOperator)) :
    history runs = builtin.merge runs.flatten :=
  List.foldl_flatten.symm

/-- The operator is the last of a list that has the symbol. -/
def LastWith (ops : List ComparisonOperator) (symbol : String) (op : ComparisonOperator) : Prop :=
  ∃ before behind, ops = before ++ op :: behind ∧ symbol ∈ op.symbols ∧
    ∀ later ∈ behind, symbol ∉ later.symbols

/-- What a symbol stands for once operators have been merged into the built-in table. -/
inductive StandsFor (ops : List ComparisonOperator) (symbol : String) :
    Except QueryError ComparisonOperator → Prop
  | merged {op : ComparisonOperator} (last : LastWith ops symbol op) :
    StandsFor ops symbol (.ok op)
  | builtin {b : Builtin} (unmerged : ∀ op ∈ ops, symbol ∉ op.symbols) (owns : symbol ∈ b.symbols) :
    StandsFor ops symbol (.ok b.operator)
  | unknown (unmerged : ∀ op ∈ ops, symbol ∉ op.symbols)
    (unowned : ∀ b : Builtin, symbol ∉ b.symbols) :
    StandsFor ops symbol (.error (.unknownOperator symbol))

/-- A symbol of a built-in operator always stands for something, and for that operator as long as
no other one with the symbol is merged. -/
theorem StandsFor.of_owned {ops : List ComparisonOperator}
    {answer : Except QueryError ComparisonOperator} (h : StandsFor ops symbol answer)
    (owns : symbol ∈ b.symbols) :
    (∃ op, answer = .ok op) ∧
      ((∀ op ∈ ops, symbol ∉ op.symbols) → answer = .ok b.operator) := by
  cases h with
  | @merged op last =>
    obtain ⟨before, behind, rfl, has, -⟩ := last
    refine ⟨⟨op, rfl⟩, fun unmerged => ?_⟩
    exact absurd has (unmerged op (List.mem_append_right _ List.mem_cons_self))
  | builtin _ owned =>
    cases Builtin.eq_of_mem_symbols owned owns
    exact ⟨⟨_, rfl⟩, fun _ => rfl⟩
  | unknown _ unowned => exact absurd owns (unowned b)

/-- A symbol of an operator that was merged stands for an operator that was merged. -/
theorem StandsFor.of_merged {ops : List ComparisonOperator}
    {answer : Except QueryError ComparisonOperator} (h : StandsFor ops symbol answer)
    (mem : op ∈ ops) (has : symbol ∈ op.symbols) :
    ∃ carrier ∈ ops, answer = .ok carrier ∧ symbol ∈ carrier.symbols := by
  cases h with
  | @merged carrier last =>
    obtain ⟨before, behind, rfl, carries, -⟩ := last
    exact ⟨carrier, List.mem_append_right _ List.mem_cons_self, rfl, carries⟩
  | builtin unmerged => exact absurd has (unmerged op mem)
  | unknown unmerged => exact absurd has (unmerged op mem)

/-- A symbol of no built-in operator is unknown until an operator with it is merged. -/
theorem lookup?_builtin_eq_none (unowned : ∀ b : Builtin, symbol ∉ b.symbols) :
    builtin.lookup? symbol = none := by
  rw [builtin, lookup?_merge, List.find?_eq_none.mpr, Option.none_or]
  · rfl
  · intro op mem
    obtain ⟨b, -, rfl⟩ := List.mem_map.mp (List.mem_reverse.mp mem)
    exact fun has => unowned b (of_decide_eq_true has)

/-- The last operator of a list with a symbol is the first from behind. -/
theorem lastWith_of_find?_reverse {ops : List ComparisonOperator}
    (h : ops.reverse.find? (symbol ∈ ·.symbols) = some op) : LastWith ops symbol op := by
  obtain ⟨has, behind, before, split, passed⟩ := List.find?_eq_some_iff_append.mp h
  refine ⟨before.reverse, behind.reverse, ?_, of_decide_eq_true has, fun later mem => ?_⟩
  · rw [← List.reverse_reverse ops, split, List.reverse_append, List.reverse_cons,
      List.append_assoc, List.singleton_append]
  · have not := passed later (List.mem_reverse.mp mem)
    simpa using not

/-- What a configuration answers for a symbol depends on the operators that were merged into its
table, and on nothing else of it. -/
theorem standsFor_operator {config : Config} {ops : List ComparisonOperator}
    (merged : config.aliases = builtin.merge ops) (symbol : String) :
    StandsFor ops symbol (config.operator symbol) := by
  rw [Config.operator, merged, lookup?_merge]
  cases found : ops.reverse.find? (symbol ∈ ·.symbols) with
  | some op => exact .merged (lastWith_of_find?_reverse found)
  | none =>
    have unmerged : ∀ op ∈ ops, symbol ∉ op.symbols := fun op mem has =>
      List.find?_eq_none.mp found op (List.mem_reverse.mpr mem) (decide_eq_true has)
    rw [Option.none_or]
    by_cases owned : ∃ b : Builtin, symbol ∈ b.symbols
    · obtain ⟨b, owns⟩ := owned
      rw [lookup?_builtin owns]
      exact .builtin unmerged owns
    · rw [not_exists] at owned
      rw [lookup?_builtin_eq_none owned]
      exact .unknown unmerged owned

end AliasTable

namespace Config

theorem operator_eq_ok {config : Config} :
    config.operator symbol = .ok op ↔ config.aliases.lookup? symbol = some op := by
  rw [operator]
  cases config.aliases.lookup? symbol with
  | none => exact iff_of_false (by rintro ⟨⟩) (by rintro ⟨⟩)
  | some other => rw [Except.ok.injEq, Option.some.injEq]

/-- What symbols stand for after any number of merges on the built-in table. The history decides
it; the table lists exactly the symbols that stand for something; and whoever takes over a symbol
of a built-in operator counts as that operator, which keeps all symbols that nobody took. -/
theorem operator_after_merges (config : Config) (runs : List (List ComparisonOperator))
    (symbol : String) :
    let merged : Config := { config with aliases := .history runs }
    AliasTable.StandsFor runs.flatten symbol (merged.operator symbol) ∧
      (merged.aliases.contains symbol ↔ ∃ op, merged.operator symbol = .ok op) ∧
      (symbol ∈ merged.aliases.symbols ↔ ∃ op, merged.operator symbol = .ok op) ∧
      merged.aliases.symbols.Pairwise (· < ·) ∧
      (∀ op, merged.operator symbol = .ok op →
        symbol ∈ op.symbols ∧ ∀ b : Builtin, symbol ∈ b.symbols → op.is b ∧ op.same b.operator) ∧
      ∀ b : Builtin, symbol ∈ b.symbols →
        (∃ op, merged.operator symbol = .ok op) ∧
          ((∀ op ∈ runs.flatten, symbol ∉ op.symbols) →
            merged.operator symbol = .ok b.operator) := by
  intro merged
  have sound : merged.aliases.Sound := AliasTable.Sound.builtin.mergeAll runs
  have stands : AliasTable.StandsFor runs.flatten symbol (merged.operator symbol) :=
    AliasTable.standsFor_operator (AliasTable.history_eq_merge runs) symbol
  refine ⟨stands, ?_, ?_, sound.sorted, ?_, ?_⟩
  · simp only [operator_eq_ok, AliasTable.contains_eq_true_iff]
  · simp only [operator_eq_ok, AliasTable.mem_symbols_iff]
  · intro op found
    have has := sound.carries (operator_eq_ok.mp found)
    exact ⟨has, fun b owns => ⟨op.is_of_mem has owns, op.same_of_mem has owns⟩⟩
  · exact fun b owns => stands.of_owned owns

/-- An operator that takes `=eq=` and leaves `==` where it was. -/
example :
    let loose : ComparisonOperator := ⟨some "loose-equals", ["=eq=", "=same="]⟩
    let t := AliasTable.history [[loose], []]
    t.lookup? "=eq=" = some loose ∧ loose.is .equals ∧
      t.lookup? "==" = some Builtin.equals.operator := by
  decide +kernel

end Config

end EntityQuery
