/-!
# Steps that can fail

Steps are taken one after the other until one of them fails, and its failure is then that of the
whole. This is said here for two steps in a row, for things that are read one by one (`List.mapM`)
and for a loop with a state (`List.foldlM`). Which step is the one that fails is a matter of order:
it is the **first** one that does (`IsFirst`).
-/

namespace ContextFree

variable {α β γ σ ε δ : Type}

/-! ### The first of several things -/

/-- Of the members of a list, `x` is the first one with the property. -/
def IsFirst (p : α → Prop) (xs : List α) (x : α) : Prop :=
  ∃ before after, xs = before ++ x :: after ∧ (∀ y ∈ before, ¬p y) ∧ p x

section First

variable {p q : α → Prop} {x y : α} {xs : List α}

theorem not_isFirst_nil : ¬IsFirst p [] x := by
  rintro ⟨before, after, eq, -⟩
  cases before <;> cases eq

theorem isFirst_cons_of_pos (h : p x) : IsFirst p (x :: xs) y ↔ y = x := by
  constructor
  · rintro ⟨before, after, eq, none, -⟩
    cases before with
    | nil => exact (List.cons.inj eq).1.symm
    | cons b before =>
      obtain ⟨rfl, -⟩ := List.cons.inj eq
      exact absurd h (none x List.mem_cons_self)
  · rintro rfl
    exact ⟨[], xs, rfl, nofun, h⟩

theorem isFirst_cons_of_neg (h : ¬p x) : IsFirst p (x :: xs) y ↔ IsFirst p xs y := by
  constructor
  · rintro ⟨before, after, eq, none, hy⟩
    cases before with
    | nil =>
      obtain ⟨rfl, -⟩ := List.cons.inj eq
      exact absurd hy h
    | cons b before =>
      obtain ⟨-, rfl⟩ := List.cons.inj eq
      exact ⟨before, after, rfl, (List.forall_mem_cons.mp none).2, hy⟩
  · rintro ⟨before, after, rfl, none, hy⟩
    exact ⟨x :: before, after, rfl, List.forall_mem_cons.mpr ⟨h, none⟩, hy⟩

theorem IsFirst.mem (h : IsFirst p xs x) : x ∈ xs := by
  obtain ⟨before, after, rfl, -⟩ := h
  exact List.mem_append_right before List.mem_cons_self

theorem IsFirst.holds (h : IsFirst p xs x) : p x := by
  obtain ⟨_, _, _, _, holds⟩ := h
  exact holds

theorem IsFirst.unique (h : IsFirst p xs x) (other : IsFirst p xs y) : x = y := by
  induction xs with
  | nil => exact absurd h not_isFirst_nil
  | cons a xs ih =>
    by_cases holds : p a
    · rw [(isFirst_cons_of_pos holds).mp h, (isFirst_cons_of_pos holds).mp other]
    · exact ih ((isFirst_cons_of_neg holds).mp h) ((isFirst_cons_of_neg holds).mp other)

theorem IsFirst.congr (same : ∀ y ∈ xs, p y ↔ q y) : IsFirst p xs x ↔ IsFirst q xs x := by
  refine exists_congr fun before => exists_congr fun after => and_congr_right ?_
  rintro rfl
  refine and_congr ?_ (same x (List.mem_append_right before List.mem_cons_self))
  exact forall₂_congr fun y mem => not_congr (same y (List.mem_append_left _ mem))

/-- A search finds the first thing that passes. -/
theorem find?_eq_some_iff_isFirst {f : α → Bool} :
    xs.find? f = some x ↔ IsFirst (f · = true) xs x := by
  rw [List.find?_eq_some_iff_append]
  constructor
  · rintro ⟨passes, before, after, rfl, none⟩
    refine ⟨before, after, rfl, fun y mem => ?_, passes⟩
    simpa using none y mem
  · rintro ⟨before, after, rfl, none, passes⟩
    refine ⟨passes, before, after, rfl, fun y mem => ?_⟩
    simpa using none y mem

theorem findSome?_eq_some_iff_isFirst {f : α → Option β} {b : β} :
    xs.findSome? f = some b ↔ ∃ x, IsFirst (f · ≠ none) xs x ∧ f x = some b := by
  rw [List.findSome?_eq_some_iff]
  constructor
  · rintro ⟨before, x, after, rfl, found, none⟩
    refine ⟨x, ⟨before, after, rfl, fun y mem => not_not_intro (none y mem), ?_⟩, found⟩
    intro missing
    rw [missing] at found
    cases found
  · rintro ⟨x, ⟨before, after, rfl, none, -⟩, found⟩
    exact ⟨before, x, after, rfl, found, fun y mem => Decidable.not_not.mp (none y mem)⟩

end First

/-! ### Two steps in a row -/

section Steps

variable {first : Except ε α} {next : α → Except ε β} {failure : ε}

/-- Two steps in a row succeed only if the first does, and the second does on its result. -/
theorem exists_of_bind_eq_ok {b : β} (h : first >>= next = .ok b) :
    ∃ a, first = .ok a ∧ next a = .ok b := by
  cases first with
  | error failure => cases h
  | ok a => exact ⟨a, rfl, h⟩

/-- Two steps in a row fail if the first does, or if the second does on its result. -/
theorem bind_eq_error_iff :
    first >>= next = .error failure ↔
      first = .error failure ∨ ∃ a, first = .ok a ∧ next a = .error failure := by
  cases first with
  | error own =>
    constructor
    · intro failed
      exact .inl (congrArg _ (Except.error.inj failed))
    · rintro (failed | ⟨_, ok, _⟩)
      · exact congrArg _ (Except.error.inj failed)
      · cases ok
  | ok a =>
    constructor
    · intro failed
      exact .inr ⟨a, rfl, failed⟩
    · rintro (failed | ⟨_, ok, failed⟩)
      · cases failed
      · cases ok
        exact failed

/-- What is done with the result of a step, if it cannot fail, has no part in how the step fails. -/
theorem bind_pure_eq_error_iff {g : α → β} :
    (do let a ← first; return g a) = .error failure ↔ first = .error failure := by
  rw [bind_eq_error_iff, or_iff_left]
  rintro ⟨_, _, failed⟩
  cases failed

/-- Changing the result of a step does not change whether it succeeds. -/
theorem exists_of_map_eq_ok {f : α → β} {b : β} (h : first.map f = .ok b) :
    ∃ a, first = .ok a ∧ f a = b := by
  cases first with
  | error failure => cases h
  | ok a => exact ⟨a, rfl, Except.ok.inj h⟩

theorem eq_error_of_map_eq_error {f : α → β} (h : first.map f = .error failure) :
    first = .error failure := by
  cases first with
  | error own => exact congrArg _ (Except.error.inj h)
  | ok a => cases h

/-- Telling a failure otherwise does not change whether a step succeeds. -/
theorem mapError_eq_ok_iff {f : ε → δ} {a : α} : first.mapError f = .ok a ↔ first = .ok a := by
  cases first with
  | error own => exact ⟨nofun, nofun⟩
  | ok b =>
    show Except.ok b = Except.ok a ↔ Except.ok b = Except.ok a
    rw [Except.ok.injEq, Except.ok.injEq]

theorem mapError_eq_error_iff {f : ε → δ} {other : δ} :
    first.mapError f = .error other ↔ ∃ own, first = .error own ∧ f own = other := by
  cases first with
  | error own =>
    constructor
    · intro same
      exact ⟨own, rfl, Except.error.inj same⟩
    · rintro ⟨_, same, rfl⟩
      cases same
      rfl
  | ok a => exact ⟨nofun, nofun⟩

end Steps

/-! ### Things that are read one by one -/

section Reading

variable {f : α → Except ε β} {xs : List α} {failure : ε}

/-- The step fails on `x`, in whatever way. -/
def Fails (f : α → Except ε β) (x : α) : Prop := ∃ failure, f x = .error failure

/-- Things are read one by one, and the results stand in the same order. -/
theorem mapM_map_eq_ok {read : β → Except ε γ} {write : α → β} {value : α → γ} {xs : List α}
    (each : ∀ x ∈ xs, read (write x) = .ok (value x)) :
    (xs.map write).mapM read = .ok (xs.map value) := by
  induction xs with
  | nil => rfl
  | cons x xs ih =>
    obtain ⟨first, others⟩ := List.forall_mem_cons.mp each
    rw [List.map_cons, List.mapM_cons, first, ih others]
    rfl

/-- Both the first thing and the others have to be read. -/
theorem mapM_cons_eq_ok_iff {x : α} {ys : List β} :
    (x :: xs).mapM f = .ok ys ↔
      ∃ first others, f x = .ok first ∧ xs.mapM f = .ok others ∧ ys = first :: others := by
  rw [List.mapM_cons]
  refine ⟨fun ok => ?_, ?_⟩
  · obtain ⟨first, read, ok⟩ := exists_of_bind_eq_ok ok
    obtain ⟨others, rest, ok⟩ := exists_of_bind_eq_ok ok
    exact ⟨first, others, read, rest, (Except.ok.inj ok).symm⟩
  · rintro ⟨first, others, read, rest, rfl⟩
    rw [read, rest]
    rfl

/-- If reading one thing undoes `write`, then reading many things undoes `write` for all. -/
theorem mapM_eq_ok_iff {write : β → α} (each : ∀ x ∈ xs, ∀ y, f x = .ok y ↔ x = write y)
    {ys : List β} : xs.mapM f = .ok ys ↔ xs = ys.map write := by
  induction xs generalizing ys with
  | nil =>
    rw [List.mapM_nil, eq_comm (a := []), List.map_eq_nil_iff, eq_comm (b := [])]
    exact ⟨Except.ok.inj, congrArg _⟩
  | cons x xs ih =>
    obtain ⟨first, others⟩ := List.forall_mem_cons.mp each
    rw [mapM_cons_eq_ok_iff]
    refine ⟨?_, fun eq => ?_⟩
    · rintro ⟨y, rest, read, readRest, rfl⟩
      rw [List.map_cons, ← (first y).mp read, ← (ih others).mp readRest]
    · obtain ⟨y, rest, rfl, hx, hrest⟩ := List.map_eq_cons_iff.mp eq.symm
      exact ⟨y, rest, (first y).mpr hx.symm, (ih others).mpr hrest.symm, rfl⟩

/-- All things are read if each of them is. -/
theorem exists_mapM_eq_ok_iff : (∃ ys, xs.mapM f = .ok ys) ↔ ∀ x ∈ xs, ∃ y, f x = .ok y := by
  induction xs with
  | nil => exact ⟨fun _ => nofun, fun _ => ⟨[], rfl⟩⟩
  | cons x xs ih =>
    rw [List.forall_mem_cons, ← ih]
    simp only [mapM_cons_eq_ok_iff]
    refine ⟨?_, ?_⟩
    · rintro ⟨_, first, others, read, rest, -⟩
      exact ⟨⟨first, read⟩, others, rest⟩
    · rintro ⟨⟨first, read⟩, others, rest⟩
      exact ⟨_, first, others, read, rest, rfl⟩

/-- What has been read was read from one of the things. -/
theorem exists_of_mem_mapM {ys : List β} (h : xs.mapM f = .ok ys) {y : β} (mem : y ∈ ys) :
    ∃ x ∈ xs, f x = .ok y := by
  induction xs generalizing ys with
  | nil =>
    cases h
    cases mem
  | cons x xs ih =>
    obtain ⟨first, others, read, rest, rfl⟩ := mapM_cons_eq_ok_iff.mp h
    obtain rfl | mem := List.mem_cons.mp mem
    · exact ⟨x, List.mem_cons_self, read⟩
    · obtain ⟨x', hx', read'⟩ := ih rest mem
      exact ⟨x', List.mem_cons_of_mem x hx', read'⟩

/-- **The first thing that cannot be read** decides how reading fails. -/
theorem mapM_eq_error_iff :
    xs.mapM f = .error failure ↔ ∃ x, IsFirst (Fails f) xs x ∧ f x = .error failure := by
  induction xs with
  | nil =>
    constructor
    · exact nofun
    · rintro ⟨x, first, -⟩
      exact absurd first not_isFirst_nil
  | cons x xs ih =>
    rw [List.mapM_cons]
    cases read : f x with
    | error own =>
      have fails : Fails f x := ⟨own, read⟩
      simp only [isFirst_cons_of_pos fails, exists_eq_left, read]
      exact ⟨fun failed => congrArg _ (Except.error.inj failed),
        fun failed => congrArg _ (Except.error.inj failed)⟩
    | ok b =>
      -- the first thing is read, so that any failure is one of the others
      have fine : ¬Fails f x := by
        rintro ⟨own, failed⟩
        rw [failed] at read
        cases read
      simp only [isFirst_cons_of_neg fine, ← ih]
      exact bind_pure_eq_error_iff

/-- Things that lie in groups are read group by group, or without regard to the groups; how reading
fails is the same. -/
theorem mapM_flatMap_eq_error_iff {f : β → Except ε γ} {group : α → List β} :
    (xs.flatMap group).mapM f = .error failure ↔
      xs.mapM (fun x => (group x).mapM f) = .error failure := by
  induction xs with
  | nil => exact ⟨nofun, nofun⟩
  | cons x xs ih =>
    rw [List.flatMap_cons, List.mapM_append, List.mapM_cons, bind_eq_error_iff, bind_eq_error_iff]
    refine or_congr_right (exists_congr fun first => and_congr_right fun _ => ?_)
    rw [bind_pure_eq_error_iff, bind_pure_eq_error_iff, ih]

/-- Two ways to read that fail alike on each thing fail alike on all of them. -/
theorem mapM_eq_error_congr {g : α → Except ε γ}
    (alike : ∀ x ∈ xs, ∀ failure, f x = .error failure ↔ g x = .error failure) :
    xs.mapM f = .error failure ↔ xs.mapM g = .error failure := by
  have fails : ∀ x ∈ xs, Fails f x ↔ Fails g x := fun x mem => exists_congr (alike x mem)
  rw [mapM_eq_error_iff, mapM_eq_error_iff]
  refine exists_congr fun x => ?_
  rw [IsFirst.congr fails]
  exact and_congr_right fun first => alike x first.mem failure

end Reading

/-! ### Loops -/

/-- **A loop that cannot fail.** If the state tells which things have been taken, then it tells in
the end that all have been. -/
theorem foldl_eq_state {step : σ → α → σ} {state : List α → σ}
    (each : ∀ taken x, step (state taken) x = state (taken ++ [x])) (taken xs : List α) :
    xs.foldl step (state taken) = state (taken ++ xs) := by
  induction xs generalizing taken with
  | nil => rw [List.foldl_nil, List.append_nil]
  | cons x xs ih => rw [List.foldl_cons, each, ih, ← List.append_cons]

/-- **A loop that can fail.** If the state tells which things have been taken, then the loop stops
at the first thing that has a fault, and otherwise takes them all. -/
theorem foldlM_eq_elim {step : σ → α → Except ε σ} {state : List α → σ} {fault? : α → Option ε}
    (each : ∀ taken x,
      step (state taken) x = (fault? x).elim (.ok (state (taken ++ [x]))) .error)
    (taken xs : List α) :
    xs.foldlM step (state taken) =
      (xs.findSome? fault?).elim (.ok (state (taken ++ xs))) .error := by
  -- the things that have been taken grow as the loop goes on
  induction xs generalizing taken with
  | nil =>
    rw [List.append_nil]
    rfl
  | cons x xs ih =>
    rw [List.foldlM_cons, each, List.findSome?_cons]
    cases fault? x with
    | some fault => rfl
    | none =>
      rw [List.append_cons taken x xs]
      exact ih (taken ++ [x])

end ContextFree
