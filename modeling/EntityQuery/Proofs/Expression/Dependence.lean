import EntityQuery.Expression.Evaluation
import EntityQuery.Sample

/-!
# What an expression depends on

An expression looks at a record only along its paths. Records that have the same candidates along
each of them (`AgreeAlong`) are the same to it: the truth, the values and the projection do not
differ, and where one of them fails on the one record, it fails on the other with the same mismatch
(`Expression.determined_by_paths`). The expressions without paths are the constants, so a constant
has one outcome on all records.

What is stored elsewhere does not matter. A field can be set to anything, as long as no path begins
with it (`agreeAlong_set`).
-/

namespace EntityQuery

variable {r r' : Record} {e : Expression} {paths paths' : List Path}

/-! ## Records that agree along paths -/

/-- Two records have the same candidates along each of some paths. -/
def AgreeAlong (paths : List Path) (r r' : Record) : Prop :=
  ∀ p ∈ paths, p.candidates r = p.candidates r'

theorem agreeAlong_nil (r r' : Record) : AgreeAlong [] r r' := nofun

/-- Records agree along the paths of both sides when they agree along those of each. -/
theorem agreeAlong_append :
    AgreeAlong (paths ++ paths') r r' ↔ AgreeAlong paths r r' ∧ AgreeAlong paths' r r' :=
  List.forall_mem_append

/-- The first step of a path leads to one field of the record only. -/
theorem PathStep.follow_set {step : PathStep} {field : String} (other : step ≠ .property field)
    (r : Record) (v : Value) : step.follow (.record (r.set field v)) = step.follow (.record r) := by
  cases step with
  | property name =>
    have different : field ≠ name := fun same => other (congrArg _ same.symm)
    simp only [follow, Record.get_set, if_neg different]
  | any => rfl
  | index i => rfl

/-- A record agrees with the one in which a field is set, along paths that begin with other
fields. -/
theorem agreeAlong_set {field : String}
    (unread : ∀ p ∈ paths, p.steps.head? ≠ some (.property field)) (r : Record) (v : Value) :
    AgreeAlong paths r (r.set field v) := by
  intro p hp
  cases hsteps : p.steps with
  | nil => simp only [Path.candidates, Path.isRoot, hsteps, List.isEmpty_nil, if_true]
  | cons step steps =>
    have other : step ≠ .property field := by
      intro same
      exact unread p hp (by rw [hsteps, same, List.head?_cons])
    simp only [Path.candidates, hsteps, PathStep.followAll, List.flatMap_singleton,
      PathStep.follow_set other]

/-! ## Expressions on such records -/

namespace Expression

/-- An expression has the same truth, the same values and the same projection on two records, or
the same failure in the place of one of them. -/
structure SameOn (e : Expression) (r r' : Record) : Prop where
  test : e.test r = e.test r'
  values : e.values r = e.values r'
  project : e.project r = e.project r'

/-- The evaluation takes nothing but candidates from a record. By induction on the expression: paths
are its only ends that look at the record. -/
theorem evaluate_congr (agree : AgreeAlong e.paths r r') : e.evaluate r = e.evaluate r' := by
  induction e with
  | literal v => rfl
  | path p =>
    have same : p.candidates r = p.candidates r' := agree p (List.mem_singleton_self p)
    simp only [evaluate, same]
  | logical junction left right ihl ihr =>
    obtain ⟨hl, hr⟩ := agreeAlong_append.mp agree
    simp only [evaluate, ihl hl, ihr hr]
  | compare relation left right ihl ihr =>
    obtain ⟨hl, hr⟩ := agreeAlong_append.mp agree
    simp only [evaluate, ihl hl, ihr hr]
  | not e ih => simp only [evaluate, ih agree]
  | lower e ih => simp only [evaluate, ih agree]
  | check k e ih => simp only [evaluate, ih agree]
  | member e items negated ih => simp only [evaluate, ih agree]

/-- An expression reads a record along its paths only. All three of its results are covered, and
failures with them. -/
theorem sameOn_of_agreeAlong (agree : AgreeAlong e.paths r r') : e.SameOn r r' := by
  have same := evaluate_congr agree
  refine ⟨congrArg Evaluation.truth same, congrArg Evaluation.values same, ?_⟩
  simp only [project, values, same]

/-- An expression is constant when it has no paths. -/
theorem isConstant_iff : e.isConstant ↔ e.paths = [] := by
  induction e with
  | literal v => simp [isConstant, paths]
  | path p => simp [isConstant, paths]
  | logical junction left right ihl ihr => simp [isConstant, paths, ihl, ihr]
  | compare relation left right ihl ihr => simp [isConstant, paths, ihl, ihr]
  | not e ih => simpa [isConstant, paths] using ih
  | lower e ih => simpa [isConstant, paths] using ih
  | check k e ih => simpa [isConstant, paths] using ih
  | member e items negated ih => simpa [isConstant, paths] using ih

/-- An expression is determined by the candidates along its paths: on records that agree along them
it has the same truth, values and projection, or the same failure. It is a constant if and only if
it has no paths, and then it has one outcome on all records. -/
theorem determined_by_paths (e : Expression) :
    (∀ r r', AgreeAlong e.paths r r' → e.SameOn r r') ∧
    (e.isConstant ↔ e.paths = []) ∧
    (e.isConstant → ∀ r r', e.SameOn r r') := by
  refine ⟨fun r r' => sameOn_of_agreeAlong, isConstant_iff, fun constant r r' => ?_⟩
  have none : e.paths = [] := isConstant_iff.mp constant
  exact sameOn_of_agreeAlong (none ▸ agreeAlong_nil r r')

/-- An engine has a certain name, in any case, or a screw of a size above three. -/
def namedOrLong : Expression :=
  let name := (Path.root "Engine").property "name" .string
  let size := (((Path.root "Engine").property "screws" .composite).any .composite).property "size"
    .numeric
  .logical .or (.compare .eq (.lower (.path name)) (.literal (.text "v8")))
    (.compare .gt (.path size) (.literal (Sample.int64 3)))

/-- An engine with screws of some sizes. -/
def engineOfSizes (sizes : List Value) : Record :=
  let screws := sizes.map fun size => Value.record (Record.ofFields "Screw" [("size", size)])
  Record.ofFields "Engine" [("name", .text "V8"), ("screws", .list screws)]

/-- A description makes no difference to the name and the sizes of an engine, neither where there is
a truth nor where a size is no number. -/
theorem determined_by_paths_engine :
    let engine := engineOfSizes [Sample.int64 5, .null]
    let odd := engineOfSizes [Sample.int64 5, .text "wide"]
    let described (r : Record) := r.set "description" (.text "spare")
    AgreeAlong namedOrLong.paths engine (described engine) ∧
      AgreeAlong namedOrLong.paths odd (described odd) ∧
      namedOrLong.test (described engine) = .ok .true ∧
      namedOrLong.test (described odd) = .error ⟨">", "string", "i64"⟩ := by
  intro engine odd described
  have unread : ∀ p ∈ namedOrLong.paths, p.steps.head? ≠ some (.property "description") := by
    decide
  have agree (r : Record) : AgreeAlong namedOrLong.paths r (described r) :=
    agreeAlong_set unread r _
  have same (r : Record) : namedOrLong.SameOn r (described r) :=
    (determined_by_paths namedOrLong).1 r (described r) (agree r)
  have truth : namedOrLong.test engine = .ok .true := rfl
  have failure : namedOrLong.test odd = .error ⟨">", "string", "i64"⟩ := rfl
  exact ⟨agree engine, agree odd, (same engine).test ▸ truth, (same odd).test ▸ failure⟩

end Expression

end EntityQuery
