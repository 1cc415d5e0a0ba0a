/-!
# Lists without repetition

Collections are lists in which nothing is listed twice; a collection is put together by erasing all
but the first occurrence of everything (`List.eraseDups`). The result has no repetition
(`nodup_eraseDups`), and a list that has none is left as it is (`eraseDups_of_nodup`).
-/

namespace ContextFree

variable {α : Type} [BEq α] [LawfulBEq α]

theorem nodup_eraseDups (xs : List α) : xs.eraseDups.Nodup := by
  match xs with
  | [] => exact .nil
  | x :: xs =>
    rw [List.eraseDups_cons, List.nodup_cons]
    refine ⟨?_, nodup_eraseDups _⟩
    rw [List.mem_eraseDups, List.mem_filter]
    rintro ⟨_, h⟩
    simp at h
termination_by xs.length
decreasing_by exact Nat.lt_succ_of_le (List.length_filter_le ..)

/-- Where nothing is listed twice, nothing is erased. -/
theorem eraseDups_of_nodup {xs : List α} (h : xs.Nodup) : xs.eraseDups = xs := by
  induction xs with
  | nil => rfl
  | cons x xs ih =>
    rw [List.nodup_cons] at h
    have rest : xs.filter (fun y => !y == x) = xs := by
      rw [List.filter_eq_self]
      intro y hy
      have : y ≠ x := fun e => h.1 (e ▸ hy)
      simpa using this
    rw [List.eraseDups_cons, rest, ih h.2]

omit [LawfulBEq α] in
/-- Erasing keeps the order: what is left is what was there, less some of it. -/
theorem eraseDups_sublist (xs : List α) : xs.eraseDups.Sublist xs := by
  match xs with
  | [] => exact .slnil
  | x :: xs =>
    rw [List.eraseDups_cons]
    exact ((eraseDups_sublist _).trans List.filter_sublist).cons_cons x
termination_by xs.length
decreasing_by exact Nat.lt_succ_of_le (List.length_filter_le ..)

omit [LawfulBEq α] in
/-- The first member of a list is its own first occurrence. -/
theorem head?_eraseDups (xs : List α) : xs.eraseDups.head? = xs.head? := by
  cases xs with
  | nil => rfl
  | cons x xs => rw [List.eraseDups_cons, List.head?_cons, List.head?_cons]

/-- Appending to a list without repetition leaves that list in front. -/
theorem exists_eraseDups_append {xs ys : List α} (h : xs.Nodup) :
    ∃ zs, (xs ++ ys).eraseDups = xs ++ zs ∧ ∀ z, z ∈ zs ↔ z ∈ ys ∧ z ∉ xs := by
  refine ⟨(ys.removeAll xs).eraseDups, ?_, fun z => ?_⟩
  · rw [List.eraseDups_append, eraseDups_of_nodup h]
  · rw [List.mem_eraseDups, List.removeAll, List.mem_filter]
    simp

/-- A list without repetition is left as it is if what is appended has nothing new. -/
theorem eraseDups_append_of_subset {xs ys : List α} (h : xs.Nodup) (sub : ∀ y ∈ ys, y ∈ xs) :
    (xs ++ ys).eraseDups = xs := by
  obtain ⟨zs, eq, mem⟩ := @exists_eraseDups_append _ _ _ xs ys h
  have none : zs = [] := by
    rw [List.eq_nil_iff_forall_not_mem]
    intro z hz
    obtain ⟨hy, hx⟩ := (mem z).mp hz
    exact hx (sub z hy)
  rw [eq, none, List.append_nil]

/-- One more thing is appended to a list without repetition, or it is there already. -/
theorem eraseDups_concat {xs : List α} (h : xs.Nodup) (x : α) :
    (xs ++ [x]).eraseDups = if x ∈ xs then xs else xs ++ [x] := by
  rw [List.eraseDups_append, eraseDups_of_nodup h, List.cons_removeAll]
  by_cases old : x ∈ xs
  · rw [if_neg (by simpa using old), if_pos old]
    exact List.append_nil xs
  · rw [if_pos (by simpa using old), if_neg old]
    rfl

/-- Selecting goes together with erasing. -/
theorem eraseDups_filter (p : α → Bool) (xs : List α) :
    (xs.filter p).eraseDups = xs.eraseDups.filter p := by
  match xs with
  | [] => rfl
  | x :: xs =>
    have others := eraseDups_filter p (xs.filter fun y => !y == x)
    rw [List.eraseDups_cons, List.filter_cons]
    by_cases selected : p x
    · have swap : (xs.filter p).filter (fun y => !y == x)
          = (xs.filter fun y => !y == x).filter p := by
        rw [List.filter_filter, List.filter_filter]
        exact List.filter_congr fun y _ => Bool.and_comm ..
      rw [if_pos selected, List.eraseDups_cons, List.filter_cons_of_pos selected, ← others, swap]
    · -- what is selected differs from the first member
      have differs : (xs.filter fun y => !y == x).filter p = xs.filter p := by
        rw [List.filter_filter]
        refine List.filter_congr fun y _ => ?_
        by_cases same : y = x
        · subst same
          simpa using selected
        · simp [same]
      rw [if_neg selected, List.filter_cons_of_neg selected, ← others, differs]
termination_by xs.length
decreasing_by exact Nat.lt_succ_of_le (List.length_filter_le ..)

/-- Erasing in front first makes no difference. -/
theorem eraseDups_eraseDups_append (xs ys : List α) :
    (xs.eraseDups ++ ys).eraseDups = (xs ++ ys).eraseDups := by
  have same : ys.removeAll xs.eraseDups = ys.removeAll xs := by
    refine List.filter_congr fun y _ => ?_
    rw [Bool.eq_iff_iff]
    simp
  rw [List.eraseDups_append, List.eraseDups_append, eraseDups_of_nodup (nodup_eraseDups xs), same]

/-- What stands in front already need not be listed again. -/
theorem eraseDups_append_cons {x : α} {xs : List α} (old : x ∈ xs) (ys : List α) :
    (xs ++ x :: ys).eraseDups = (xs ++ ys).eraseDups := by
  rw [List.eraseDups_append, List.eraseDups_append, List.cons_removeAll,
    if_neg (by simpa using old)]

/-- What stands in front already need not be appended. -/
theorem eraseDups_append_filter {p : α → Bool} {xs ys : List α}
    (old : ∀ y ∈ ys, ¬ p y → y ∈ xs) : (xs ++ ys.filter p).eraseDups = (xs ++ ys).eraseDups := by
  have same : (ys.filter p).removeAll xs = ys.removeAll xs := by
    rw [List.removeAll, List.filter_filter]
    refine List.filter_congr fun y mem => ?_
    by_cases selected : p y
    · simp [selected]
    · simp [old y mem selected]
  rw [List.eraseDups_append, List.eraseDups_append, same]

/-- A list in front of a list without repetition, to which the beginning of it is appended, is still
in front. -/
theorem eraseDups_append_prefix {xs ys zs : List α} (nodup : zs.Nodup) (front : xs <+: zs)
    (begins : ys.eraseDups <+: zs) : (xs ++ ys).eraseDups <+: zs := by
  obtain ⟨rest, rfl⟩ := front
  obtain ⟨distinct, _, apart⟩ := List.nodup_append.mp nodup
  have new := begins.filter fun y => !xs.elem y
  -- of the whole list, that is what comes after the front
  have none : xs.filter (fun y => !xs.elem y) = [] := by
    rw [List.filter_eq_nil_iff]
    intro x mem
    simpa using mem
  have all : rest.filter (fun y => !xs.elem y) = rest := by
    rw [List.filter_eq_self]
    intro y mem
    have : y ∉ xs := fun old => apart y old y mem rfl
    simpa using this
  rw [List.filter_append, none, all, List.nil_append, ← eraseDups_filter] at new
  rw [List.eraseDups_append, eraseDups_of_nodup distinct]
  exact (List.prefix_append_right_inj xs).mpr new

/-! ### Looking things up by a key -/

section Key

variable {β γ : Type} [DecidableEq γ] {key : β → γ} {xs : List β} {x : β}

/-- Where no key occurs twice, only one member has the key of a member. -/
theorem filter_key_eq (distinct : (xs.map key).Nodup) (mem : x ∈ xs) :
    xs.filter (fun y => key y = key x) = [x] := by
  induction xs with
  | nil => cases mem
  | cons y ys ih =>
    rw [List.map_cons, List.nodup_cons] at distinct
    obtain ⟨fresh, distinct⟩ := distinct
    rcases List.mem_cons.mp mem with rfl | mem
    · have none : ys.filter (fun y => key y = key x) = [] := by
        rw [List.filter_eq_nil_iff]
        intro other hother same
        refine fresh ?_
        rw [← of_decide_eq_true same]
        exact List.mem_map_of_mem hother
      rw [List.filter_cons_of_pos (by simp), none]
    · have other : key y ≠ key x := fun same => fresh (same ▸ List.mem_map_of_mem mem)
      rw [List.filter_cons_of_neg (by simpa using other), ih distinct mem]

/-- Where no key occurs twice, a member is found by its key. -/
theorem find?_key_eq (distinct : (xs.map key).Nodup) (mem : x ∈ xs) :
    xs.find? (fun y => key y = key x) = some x := by
  rw [← List.head?_filter, filter_key_eq distinct mem]
  rfl

theorem find?_key_eq_none {k : γ} (h : k ∉ xs.map key) : xs.find? (fun y => key y = k) = none := by
  rw [List.find?_eq_none]
  intro y mem eq
  exact h (List.mem_map.mpr ⟨y, mem, of_decide_eq_true eq⟩)

end Key

end ContextFree
