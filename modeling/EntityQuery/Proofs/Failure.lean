import Mathlib.Data.List.Forall2

/-!
# Results that may fail

A computation in `Except` succeeds when all its parts do. These are the inversions that the theory
of the library is built on: of a bind, of a map, and of a function that is applied along a list and
stops at the first failure (`FailsFirst`). Of what can go wrong nothing is added by putting
computations together, so a class of errors that covers the parts covers the whole (`FailsOnly`).
-/

namespace EntityQuery

variable {ε α β : Type}

theorem exists_of_isOk {x : Except ε α} (h : x.isOk) : ∃ a, x = .ok a := by
  cases x with
  | error e => cases h
  | ok a => exact ⟨a, rfl⟩

theorem ok_of_toOption {x : Except ε α} {a : α} (h : x.toOption = some a) : x = .ok a := by
  cases x with
  | error e => cases h
  | ok b =>
    cases h
    rfl

theorem ok_bind (a : α) (f : α → Except ε β) : Except.ok a >>= f = f a := rfl

theorem error_bind (e : ε) (f : α → Except ε β) : Except.error e >>= f = .error e := rfl

/-- A computation in two steps succeeds when both do. Proofs about compilation peel off one step
after the other with this. -/
theorem bind_eq_ok {x : Except ε α} {f : α → Except ε β} {b : β} :
    x >>= f = .ok b ↔ ∃ a, x = .ok a ∧ f a = .ok b := by
  cases x with
  | error e => exact ⟨fun h => (by cases h), fun ⟨a, h, _⟩ => (by cases h)⟩
  | ok a => exact ⟨fun h => ⟨a, rfl, h⟩, fun ⟨a', h, hf⟩ => (by cases h; exact hf)⟩

theorem map_eq_ok {x : Except ε α} {g : α → β} {b : β} :
    x.map g = .ok b ↔ ∃ a, x = .ok a ∧ g a = b := by
  cases x with
  | error e => exact ⟨fun h => (by cases h), fun ⟨a, h, _⟩ => (by cases h)⟩
  | ok a =>
    refine ⟨fun h => ⟨a, rfl, Except.ok.inj h⟩, ?_⟩
    rintro ⟨a', h, rfl⟩
    cases h
    rfl

/-- A function behind a computation has no failures of its own. -/
theorem map_eq_error {x : Except ε α} {g : α → β} {e : ε} : x.map g = .error e ↔ x = .error e := by
  cases x with
  | error e' => exact ⟨fun h => (by cases h; rfl), fun h => (by cases h; rfl)⟩
  | ok a => exact ⟨fun h => (by cases h), fun h => (by cases h)⟩

/-- A list is gone through from the front: the first failure is that of the head, if it has one. -/
theorem mapM_cons_eq (f : α → Except ε β) (x : α) (xs : List α) :
    (x :: xs).mapM f = f x >>= fun y => (xs.mapM f).map (y :: ·) := by
  simp only [List.mapM_cons]
  cases f x with
  | error e => rfl
  | ok y => cases xs.mapM f <;> rfl

/-- A function succeeds along a list when it does on each item. The results are related to the items
one by one, which is how all later proofs about lists of literals, children and rows take them
apart. -/
theorem mapM_eq_ok {f : α → Except ε β} {xs : List α} {ys : List β} :
    xs.mapM f = .ok ys ↔ List.Forall₂ (fun x y => f x = .ok y) xs ys := by
  induction xs generalizing ys with
  | nil =>
    constructor
    · intro h
      cases h
      exact .nil
    · intro h
      cases h
      rfl
  | cons x xs ih =>
    rw [mapM_cons_eq, bind_eq_ok]
    constructor
    · rintro ⟨y, hy, h⟩
      obtain ⟨rest, hrest, rfl⟩ := map_eq_ok.mp h
      exact .cons hy (ih.mp hrest)
    · intro h
      cases h with
      | cons hy hrest => exact ⟨_, hy, map_eq_ok.mpr ⟨_, ih.mpr hrest, rfl⟩⟩

/-- An item of a list has a partner in a list that is related to it item by item. -/
theorem exists_of_mem_forall₂ {R : α → β → Prop} {xs : List α} {ys : List β}
    (h : List.Forall₂ R xs ys) {x : α} (hx : x ∈ xs) : ∃ y ∈ ys, R x y := by
  induction h with
  | nil => cases hx
  | cons hxy _ ih =>
    rcases List.mem_cons.mp hx with rfl | hx
    · exact ⟨_, List.mem_cons_self, hxy⟩
    · obtain ⟨y, hmem, hxy⟩ := ih hx
      exact ⟨y, List.mem_cons_of_mem _ hmem, hxy⟩

/-- Where a whole list succeeds each of its items does. -/
theorem ok_of_mem_mapM {f : α → Except ε β} {xs : List α} {ys : List β} (h : xs.mapM f = .ok ys)
    {x : α} (hx : x ∈ xs) : ∃ y ∈ ys, f x = .ok y :=
  exists_of_mem_forall₂ (mapM_eq_ok.mp h) hx

/-- What a function gives along a list, it gives on an item. -/
theorem mem_of_mem_mapM {f : α → Except ε β} {xs : List α} {ys : List β} (h : xs.mapM f = .ok ys)
    {y : β} (hy : y ∈ ys) : ∃ x ∈ xs, f x = .ok y :=
  exists_of_mem_forall₂ (mapM_eq_ok.mp h).flip hy

/-- Where no item fails, going through a list is mapping it. -/
theorem mapM_eq_ok_map {f : α → Except ε β} {g : α → β} {xs : List α}
    (h : ∀ x ∈ xs, f x = .ok (g x)) : xs.mapM f = .ok (xs.map g) := by
  rw [mapM_eq_ok, List.forall₂_map_right_iff, List.forall₂_same]
  exact h

/-- A list succeeds when each of its items does. -/
theorem mapM_ok_of_forall {f : α → Except ε β} {xs : List α} (h : ∀ x ∈ xs, ∃ y, f x = .ok y) :
    ∃ ys, xs.mapM f = .ok ys := by
  induction xs with
  | nil => exact ⟨[], rfl⟩
  | cons x xs ih =>
    obtain ⟨y, hy⟩ := h x List.mem_cons_self
    obtain ⟨ys, hys⟩ := ih fun x' hx' => h x' (List.mem_cons_of_mem _ hx')
    exact ⟨y :: ys, by rw [mapM_cons_eq, hy, hys]; rfl⟩

/-- Functions that agree on the items of two lists, in turn, agree along them. -/
theorem mapM_eq_of_forall₂ {γ : Type} {f : α → Except ε γ} {g : β → Except ε γ} {xs : List α}
    {ys : List β} (h : List.Forall₂ (fun x y => f x = g y) xs ys) : xs.mapM f = ys.mapM g := by
  induction h with
  | nil => rfl
  | cons hxy _ ih => rw [mapM_cons_eq, mapM_cons_eq, hxy, ih]

/-- What is done with the items of a list that may have failed succeeds when none of them has, and
it succeeds on each. -/
theorem mapM_bind_eq_ok {f : α → Except ε β} {as : List (Except ε α)} {ys : List β} :
    (as.mapM fun a => a.bind f) = .ok ys ↔
      ∃ xs : List α, as = xs.map .ok ∧ xs.mapM f = .ok ys := by
  constructor
  · intro h
    induction as generalizing ys with
    | nil => exact ⟨[], rfl, h⟩
    | cons a as ih =>
      rw [mapM_cons_eq, bind_eq_ok] at h
      obtain ⟨y, hy, h⟩ := h
      obtain ⟨rest, hrest, rfl⟩ := map_eq_ok.mp h
      obtain ⟨x, rfl, hx⟩ := bind_eq_ok.mp hy
      obtain ⟨xs, rfl, hxs⟩ := ih hrest
      exact ⟨x :: xs, rfl, by rw [mapM_cons_eq, hx, hxs]; rfl⟩
  · rintro ⟨xs, rfl, h⟩
    rw [List.mapM_map]
    exact h

/-- Results without a failure among them are values. -/
theorem exists_map_ok {xs : List (Except ε α)} (fine : ∀ e, .error e ∉ xs) :
    ∃ as, xs = List.map .ok as := by
  induction xs with
  | nil => exact ⟨[], rfl⟩
  | cons x xs ih =>
    obtain ⟨as, rfl⟩ := ih fun e he => fine e (List.mem_cons_of_mem x he)
    cases x with
    | error e => exact absurd List.mem_cons_self (fine e)
    | ok a => exact ⟨a :: as, rfl⟩

/-- A function fails on an item of a list, and on none in front of it. -/
def FailsFirst (f : α → Except ε β) (xs : List α) (e : ε) : Prop :=
  ∃ before x behind, xs = before ++ x :: behind ∧ (∀ y ∈ before, ∃ b, f y = .ok b) ∧
    f x = .error e

theorem not_failsFirst_nil {f : α → Except ε β} {e : ε} : ¬FailsFirst f [] e := by
  rintro ⟨before, x, behind, h, -⟩
  exact List.append_ne_nil_of_right_ne_nil _ (List.cons_ne_nil x behind) h.symm

/-- The first failure of a list is that of its head, or the first one behind a head that
succeeds. -/
theorem failsFirst_cons_iff {f : α → Except ε β} {x : α} {xs : List α} {e : ε} :
    FailsFirst f (x :: xs) e ↔ f x = .error e ∨ (∃ b, f x = .ok b) ∧ FailsFirst f xs e := by
  constructor
  · rintro ⟨before, y, behind, split, fine, hy⟩
    cases before with
    | nil =>
      cases split
      exact .inl hy
    | cons _ before =>
      cases split
      obtain ⟨hx, fine⟩ := List.forall_mem_cons.mp fine
      exact .inr ⟨hx, before, y, behind, rfl, fine, hy⟩
  · rintro (hx | ⟨hx, before, y, behind, rfl, fine, hy⟩)
    · exact ⟨[], x, xs, rfl, nofun, hx⟩
    · exact ⟨x :: before, y, behind, rfl, List.forall_mem_cons.mpr ⟨hx, fine⟩, hy⟩

/-- What is done with the results does not matter. -/
theorem failsFirst_map {γ : Type} {f : α → Except ε β} (g : β → γ) {xs : List α} {e : ε} :
    FailsFirst (fun x => (f x).map g) xs e ↔ FailsFirst f xs e := by
  induction xs with
  | nil => exact iff_of_false not_failsFirst_nil not_failsFirst_nil
  | cons x xs ih =>
    rw [failsFirst_cons_iff, failsFirst_cons_iff, ih]
    cases f x <;> simp [Except.map]

/-- There is a first failure as soon as there is one. -/
theorem exists_failsFirst_iff {f : α → Except ε β} {xs : List α} :
    (∃ e, FailsFirst f xs e) ↔ ∃ x ∈ xs, ∃ e, f x = .error e := by
  induction xs with
  | nil => exact iff_of_false (fun ⟨e, h⟩ => not_failsFirst_nil h) (by simp)
  | cons x xs ih =>
    simp only [failsFirst_cons_iff, List.exists_mem_cons_iff, ← ih]
    cases f x with
    | error e' => exact iff_of_true ⟨e', .inl rfl⟩ (.inl ⟨e', rfl⟩)
    | ok y => simp

/-- Along a list that is made of two, a function fails in the first, or in the second and nowhere in
the first. -/
theorem failsFirst_append_iff {f : α → Except ε β} {xs ys : List α} {e : ε} :
    FailsFirst f (xs ++ ys) e ↔
      FailsFirst f xs e ∨ (∀ x ∈ xs, ∃ b, f x = .ok b) ∧ FailsFirst f ys e := by
  induction xs with
  | nil =>
    rw [List.nil_append, or_iff_right not_failsFirst_nil, and_iff_right nofun]
  | cons x xs ih =>
    rw [List.cons_append, failsFirst_cons_iff, failsFirst_cons_iff, ih, List.forall_mem_cons,
      and_or_left, or_assoc, and_assoc]

/-- Where a function fails nowhere, it succeeds everywhere. -/
theorem forall_ok_iff {f : α → Except ε β} {xs : List α} :
    (∀ x ∈ xs, ∃ b, f x = .ok b) ↔ ∀ e, ¬FailsFirst f xs e := by
  rw [← not_exists, exists_failsFirst_iff, not_exists]
  refine forall_congr' fun x => ?_
  cases f x <;> simp

/-- A function that fails on each item as another does along the parts of the item fails along the
list as the other does along all parts. -/
theorem failsFirst_flatMap_iff {γ δ : Type} {f : α → Except ε β} {g : γ → Except ε δ}
    {parts : α → List γ} {xs : List α}
    (each : ∀ x ∈ xs, ∀ e, f x = .error e ↔ FailsFirst g (parts x) e) {e : ε} :
    FailsFirst f xs e ↔ FailsFirst g (xs.flatMap parts) e := by
  induction xs with
  | nil => exact iff_of_false not_failsFirst_nil not_failsFirst_nil
  | cons x xs ih =>
    obtain ⟨first, further⟩ := List.forall_mem_cons.mp each
    have fine : (∃ b, f x = .ok b) ↔ ∀ y ∈ parts x, ∃ b, g y = .ok b := by
      rw [forall_ok_iff]
      simp only [← first]
      cases f x <;> simp
    rw [failsFirst_cons_iff, List.flatMap_cons, failsFirst_append_iff, first, fine, ih further]

/-- Along a list a function fails as it does on the first item that it fails on. -/
theorem mapM_eq_error {f : α → Except ε β} {xs : List α} {e : ε} :
    xs.mapM f = .error e ↔ FailsFirst f xs e := by
  induction xs with
  | nil => exact iff_of_false (by rintro ⟨⟩) not_failsFirst_nil
  | cons x xs ih =>
    rw [mapM_cons_eq, failsFirst_cons_iff, ← ih]
    cases f x with
    | error e' =>
      rw [error_bind, Except.error.injEq, Except.error.injEq, or_iff_left]
      rintro ⟨⟨b, ⟨⟩⟩, -⟩
    | ok y =>
      rw [ok_bind, map_eq_error, or_iff_right nofun, and_iff_right ⟨y, rfl⟩]

theorem forM_eq_ok {f : α → Except ε Unit} {xs : List α} {u : Unit} :
    xs.forM f = .ok u ↔ ∀ x ∈ xs, f x = .ok () := by
  induction xs with
  | nil => exact iff_of_true rfl fun x hx => (by cases hx)
  | cons x xs ih =>
    have first : (x :: xs).forM f = f x >>= fun _ => xs.forM f := rfl
    rw [first, bind_eq_ok, List.forall_mem_cons, ← ih]
    exact ⟨fun ⟨(), h⟩ => h, fun h => ⟨(), h⟩⟩

/-- A run that fails has succeeded on the items in front of the one that it fails on. -/
theorem foldlM_eq_error {f : β → α → Except ε β} {xs : List α} {b : β} {e : ε} :
    xs.foldlM f b = .error e ↔
      ∃ before x behind b', xs = before ++ x :: behind ∧ before.foldlM f b = .ok b' ∧
        f b' x = .error e := by
  induction xs generalizing b with
  | nil =>
    refine iff_of_false (by rintro ⟨⟩) ?_
    rintro ⟨before, x, behind, b', h, -⟩
    exact List.append_ne_nil_of_right_ne_nil _ (List.cons_ne_nil x behind) h.symm
  | cons x xs ih =>
    rw [List.foldlM_cons]
    constructor
    · intro h
      cases hx : f b x with
      | error e' =>
        rw [hx] at h
        cases h
        exact ⟨[], x, xs, b, rfl, rfl, hx⟩
      | ok b₁ =>
        rw [hx] at h
        obtain ⟨before, y, behind, b', rfl, hb, hy⟩ := ih.mp h
        exact ⟨x :: before, y, behind, b', rfl, by rw [List.foldlM_cons, hx]; exact hb, hy⟩
    · rintro ⟨before, y, behind, b', split, hb, hy⟩
      cases before with
      | nil =>
        cases split
        cases hb
        rw [hy]
        rfl
      | cons _ before =>
        cases split
        rw [List.foldlM_cons, bind_eq_ok] at hb
        obtain ⟨b₁, hx, hb⟩ := hb
        rw [hx]
        exact ih.mpr ⟨before, y, behind, b', rfl, hb, hy⟩

/-- Going through two lists is going through them one after the other. -/
theorem mapM_append_eq (f : α → Except ε β) (front behind : List α) :
    (front ++ behind).mapM f =
      front.mapM f >>= fun ys => (behind.mapM f).map (ys ++ ·) := by
  induction front with
  | nil => cases h : behind.mapM f <;> simp [h, bind, Except.bind, Except.map, pure, Except.pure]
  | cons x xs ih =>
    rw [List.cons_append, mapM_cons_eq, mapM_cons_eq, ih]
    cases f x with
    | error e => rfl
    | ok y =>
      cases xs.mapM f with
      | error e => rfl
      | ok ys => cases behind.mapM f <;> rfl

/-! ## Classes of errors -/

/-- If a computation fails, its error has a property. -/
def FailsOnly (P : ε → Prop) (x : Except ε α) : Prop := ∀ e, x = .error e → P e

namespace FailsOnly

variable {P Q : ε → Prop} {x : Except ε α}

theorem ok (a : α) : FailsOnly P (.ok a : Except ε α) := nofun

theorem error {e : ε} (h : P e) : FailsOnly P (.error e : Except ε α) := by
  rintro _ ⟨⟩
  exact h

/-- What fails only in some ways fails only in more of them. -/
theorem mono (h : FailsOnly P x) (weaker : ∀ e, P e → Q e) : FailsOnly Q x :=
  fun e fails => weaker e (h e fails)

/-- Two steps that fail only in some ways are together a step that does. This is how a property of
causes passes from function to function. -/
theorem bind {f : α → Except ε β} (h : FailsOnly P x) (behind : ∀ a, FailsOnly P (f a)) :
    FailsOnly P (x >>= f) := by
  cases x with
  | error e => exact .error (h e rfl)
  | ok a => exact behind a

theorem map (h : FailsOnly P x) (g : α → β) : FailsOnly P (x.map g) :=
  fun e fails => h e (map_eq_error.mp fails)

/-- So it passes to all items of a list. -/
theorem mapM {f : α → Except ε β} {xs : List α} (each : ∀ x ∈ xs, FailsOnly P (f x)) :
    FailsOnly P (xs.mapM f) := by
  intro e fails
  obtain ⟨before, x, behind, rfl, -, fault⟩ := mapM_eq_error.mp fails
  exact each x (List.mem_append_right before List.mem_cons_self) e fault

end FailsOnly

end EntityQuery
