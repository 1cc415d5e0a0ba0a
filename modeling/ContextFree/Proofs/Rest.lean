import ContextFree.Distinct
import ContextFree.Saturation
import Mathlib.Data.List.Nodup
import Mathlib.Tactic.ByContra

/-!
# Rounds that come to rest

A round that only adds to a list, without repetition and without leaving a given collection, can
change something at most as often as the collection has members (`rest_of_grows`). A **search** is
such a round: it appends to the names found so far the names that follow from them (`spread`).
What it finds in the end is everything that can be reached (`mem_settle_spread_iff`), and whatever
can be reached at all is reached in no more steps than there are names (`Reaches.exists_le`).
-/

namespace ContextFree

/-- The list has no repetition and stays inside a collection. -/
def Inside {α : Type} (U found : List α) : Prop := found.Nodup ∧ ∀ x ∈ found, x ∈ U

theorem inside_nil {α : Type} (U : List α) : Inside U [] := ⟨List.nodup_nil, by simp⟩

theorem Inside.concat {α : Type} {U found : List α} {x : α} (h : Inside U found) (hx : x ∈ U)
    (new : x ∉ found) : Inside U (found ++ [x]) := by
  refine ⟨List.nodup_append_comm.mp (List.nodup_cons.mpr ⟨new, h.1⟩), ?_⟩
  intro a ha
  rcases List.mem_append.mp ha with ha | ha
  · exact h.2 a ha
  · rw [List.mem_singleton.mp ha]
    exact hx

/-- **A round that adds members of a collection comes to rest** after as many rounds as the
collection has members. -/
theorem rest_of_grows {α : Type} [DecidableEq α] {U : List α} {round : List α → List α}
    (grows : ∀ found, Inside U found → found <+: round found)
    (keeps : ∀ found, Inside U found → Inside U (round found)) {n : Nat} {found : List α}
    (inside : Inside U found) (room : U.length ≤ n + found.length) :
    round (settle round n found).2 = (settle round n found).2 := by
  induction n generalizing found with
  | zero =>
    -- there is no room left: what is found is as long as the collection
    have full : (round found).length ≤ U.length :=
      (keeps found inside).1.length_le_of_subset (keeps found inside).2
    exact ((grows found inside).eq_of_length_le (by omega)).symm
  | succ n ih =>
    by_cases fixed : round found = found
    · rw [settle_of_fixed fixed]
      exact fixed
    · -- the round takes up room, so that there is one round less to go and less room as well
      rw [settle_succ_of_ne fixed]
      refine ih (keeps found inside) ?_
      have longer : found.length < (round found).length := by
        by_contra short
        exact fixed ((grows found inside).eq_of_length_le (by omega)).symm
      omega

/-! ### Searches -/

section Search

variable {next : Name → List Name} {U : List Name} {A B : Name}

/-- A name is reached from another one in `n` steps. -/
inductive Reaches (next : Name → List Name) (A : Name) : Nat → Name → Prop where
  | refl : Reaches next A 0 A
  | step {n : Nat} {B C : Name} : Reaches next A n B → C ∈ next B → Reaches next A (n + 1) C

/-- What is reached stays in a collection that no step leaves. -/
theorem Reaches.mem (stays : ∀ B ∈ U, ∀ C ∈ next B, C ∈ U) (hA : A ∈ U)
    {n : Nat} (h : Reaches next A n B) : B ∈ U := by
  induction h with
  | refl => exact hA
  | step _ follows ih => exact stays _ ih _ follows

/-- The names found so far, and then the names that follow from them. -/
def spread (next : Name → List Name) (found : List Name) : List Name :=
  (found ++ found.flatMap next).eraseDups

theorem mem_spread {found : List Name} {C : Name} :
    C ∈ spread next found ↔ C ∈ found ∨ ∃ B ∈ found, C ∈ next B := by
  rw [spread, List.mem_eraseDups, List.mem_append, List.mem_flatMap]

theorem subset_spread {found : List Name} {A : Name} (h : A ∈ found) : A ∈ spread next found :=
  mem_spread.mpr (.inl h)

theorem prefix_spread {found : List Name} (h : found.Nodup) : found <+: spread next found := by
  obtain ⟨zs, eq, _⟩ := @exists_eraseDups_append _ _ _ found (found.flatMap next) h
  exact ⟨zs, eq.symm⟩

theorem inside_spread (stays : ∀ B ∈ U, ∀ C ∈ next B, C ∈ U) {found : List Name}
    (h : Inside U found) : Inside U (spread next found) := by
  refine ⟨nodup_eraseDups _, fun C hC => ?_⟩
  rcases mem_spread.mp hC with hC | ⟨B, hB, hC⟩
  · exact h.2 C hC
  · exact stays B (h.2 B hB) C hC

/-- Rounds of a search find nothing but what is reached, and in no more steps than rounds. -/
theorem reaches_of_mem_repeat {n : Nat} (h : B ∈ Nat.repeat (spread next) n [A]) :
    ∃ m, m ≤ n ∧ Reaches next A m B := by
  induction n generalizing B with
  | zero =>
    rw [List.mem_singleton.mp h]
    exact ⟨0, Nat.le_refl 0, .refl⟩
  | succ n ih =>
    rcases mem_spread.mp h with h | ⟨C, hC, hB⟩
    · -- found in an earlier round
      obtain ⟨m, hm, reaches⟩ := ih h
      exact ⟨m, Nat.le_succ_of_le hm, reaches⟩
    · -- found in this round, one step after something that was found before
      obtain ⟨m, hm, reaches⟩ := ih hC
      exact ⟨m + 1, Nat.succ_le_succ hm, reaches.step hB⟩

/-- A list that a search leaves alone has all that can be reached from its members. -/
theorem mem_of_reaches {found : List Name} (rest : spread next found = found) (hA : A ∈ found)
    {n : Nat} (h : Reaches next A n B) : B ∈ found := by
  induction h with
  | refl => exact hA
  | step _ hC ih =>
    rw [← rest]
    exact mem_spread.mpr (.inr ⟨_, ih, hC⟩)

variable (stays : ∀ B ∈ U, ∀ C ∈ next B, C ∈ U) (hA : A ∈ U)
include stays hA

theorem spread_settled :
    spread next (settle (spread next) U.length [A]).2 = (settle (spread next) U.length [A]).2 := by
  have inside : Inside U [A] := ⟨by simp, by simpa using hA⟩
  exact rest_of_grows (fun _ h => prefix_spread h.1) (fun _ h => inside_spread stays h) inside
    (Nat.le_add_right _ _)

/-- **A search finds what can be reached**, no more and no less, if it may take as many rounds as
there are names that it can come to. -/
theorem mem_settle_spread_iff :
    B ∈ (settle (spread next) U.length [A]).2 ↔ ∃ n, Reaches next A n B := by
  refine ⟨fun h => ?_, fun ⟨n, h⟩ => ?_⟩
  · -- what has settled is what some number of rounds lead to
    rw [settle_snd] at h
    obtain ⟨m, _, reaches⟩ := reaches_of_mem_repeat h
    exact ⟨m, reaches⟩
  · have start : A ∈ (settle (spread next) U.length [A]).2 :=
      settle_induction (P := (A ∈ ·)) (fun _ => subset_spread) _ List.mem_cons_self
    exact mem_of_reaches (spread_settled stays hA) start h

/-- **Short ways are enough**: what can be reached at all is reached in no more steps than there
are names. -/
theorem Reaches.exists_le {n : Nat} (h : Reaches next A n B) :
    ∃ m, m ≤ U.length ∧ Reaches next A m B := by
  have found := (mem_settle_spread_iff stays hA).mpr ⟨n, h⟩
  rw [settle_snd] at found
  exact reaches_of_mem_repeat found

end Search

end ContextFree
