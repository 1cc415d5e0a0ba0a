import ContextFree.Proofs.Kept
import Mathlib.Data.List.Flatten
import Mathlib.Order.Bounds.Basic

/-!
# Searching with a queue

A search can go by rounds, each of which looks at everything that has been found. It can also keep
a **queue** of the names that are still to be looked at: a step takes the first name off the queue
and, if it has not been found before, finds it and puts the names that follow from it at the end
(`Search.step`). The queue is filled while it is drained, and it may list a name several times.

Both searches find the same names in the same order. The steps of a queue keep an invariant
(`Search.Explores`): what is found or waits in the queue, in this order, are the first name and the
names that follow from what is found, if repetitions do not count.

* `Search.exists_repeat_eq_nil` — the queue is empty in the end. A step takes a name off the queue
  or gets past a name that was not found before, so it leaves less to do (`Search.work`).
* `Search.Explores.found_eq` — what has been found then is what the rounds find: every round gives a
  beginning of it (`Search.Explores.prefix_rounds`).
* `Search.Explores.pairwise` — the names stand in the order of their distances, since a round finds
  just what has a distance of no more than the number of rounds.

For the accessible non-terminals this is `Grammar.WellFormed.exists_removeInaccessible`.
-/

namespace ContextFree

/-! ### Distances and rounds -/

section Rounds

variable {next : Name → List Name} {A B C : Name} {n : Nat}

theorem subset_repeat_spread {found : List Name} (mem : B ∈ found) (n : Nat) :
    B ∈ Nat.repeat (spread next) n found := by
  induction n with
  | zero => exact mem
  | succ n ih => exact subset_spread ih

/-- **A round finds what is one step further away**: after `n` rounds everything has been found that
is reached in at most `n` steps, and nothing else. -/
theorem mem_repeat_spread_iff :
    B ∈ Nat.repeat (spread next) n [A] ↔ ∃ m ≤ n, Reaches next A m B := by
  refine ⟨reaches_of_mem_repeat, ?_⟩
  rintro ⟨m, le, reaches⟩
  induction n generalizing m B with
  | zero =>
    obtain rfl := Nat.le_zero.mp le
    cases reaches
    exact List.mem_singleton.mpr rfl
  | succ n ih =>
    cases reaches with
    | refl => exact subset_repeat_spread (List.mem_singleton.mpr rfl) (n + 1)
    | step before follows =>
      -- the name before it is found one round earlier
      exact mem_spread.mpr (.inr ⟨_, ih _ (Nat.le_of_succ_le_succ le) before, follows⟩)

end Rounds

/-! ### One step -/

/-- A search with a queue. -/
structure Search where
  /-- The names that are still to be looked at. -/
  queue : List Name
  /-- The names that have been found, in the order in which they were found. -/
  found : List Name
deriving DecidableEq

namespace Search

variable {next : Name → List Name} {U found queue : List Name} {A B : Name} {search : Search}

/-- Takes the first name off the queue. If it is new, it is found, and of the names that follow from
it those are put at the end of the queue that have not been found by now. -/
def step (next : Name → List Name) : Search → Search
  | ⟨[], found⟩ => ⟨[], found⟩
  | ⟨A :: queue, found⟩ =>
    if A ∈ found then ⟨queue, found⟩
    else ⟨queue ++ (next A).filter (· ∉ found ++ [A]), found ++ [A]⟩

theorem step_of_mem (old : B ∈ found) : step next ⟨B :: queue, found⟩ = ⟨queue, found⟩ :=
  if_pos old

theorem step_of_notMem (new : B ∉ found) :
    step next ⟨B :: queue, found⟩
      = ⟨queue ++ (next B).filter (· ∉ found ++ [B]), found ++ [B]⟩ :=
  if_neg new

/-- A search from `A` is on its way. -/
structure Explores (next : Name → List Name) (A : Name) (search : Search) : Prop where
  /-- Nothing is found twice. -/
  nodup : search.found.Nodup
  /-- What is found or waits can be reached. -/
  reached : ∀ B ∈ search.found ++ search.queue, ∃ n, Reaches next A n B
  /-- What is found, and then what waits, is what follows from what is found. -/
  listed : (search.found ++ search.queue).eraseDups = (A :: search.found.flatMap next).eraseDups

theorem explores_start (next : Name → List Name) (A : Name) : Explores next A ⟨[A], []⟩ where
  nodup := List.nodup_nil
  reached B mem := by
    obtain rfl := List.mem_singleton.mp mem
    exact ⟨0, .refl⟩
  listed := rfl

/-- A name that has been found before is passed over. -/
theorem Explores.skip (explores : Explores next A ⟨B :: queue, found⟩) (old : B ∈ found) :
    Explores next A ⟨queue, found⟩ where
  nodup := explores.nodup
  reached C mem := by
    refine explores.reached C ?_
    rcases List.mem_append.mp mem with mem | mem
    · exact List.mem_append_left _ mem
    · exact List.mem_append_right _ (List.mem_cons_of_mem _ mem)
  listed := (eraseDups_append_cons old queue).symm.trans explores.listed

/-- A new name is found, and what follows from it is put in the queue. -/
theorem Explores.find (explores : Explores next A ⟨B :: queue, found⟩) (new : B ∉ found) :
    Explores next A ⟨queue ++ (next B).filter (· ∉ found ++ [B]), found ++ [B]⟩ where
  nodup := List.nodup_append_comm.mp (List.nodup_cons.mpr ⟨new, explores.nodup⟩)
  reached C mem := by
    rw [← List.append_assoc, List.append_assoc found, List.singleton_append] at mem
    rcases List.mem_append.mp mem with mem | mem
    · exact explores.reached C mem
    · obtain ⟨n, reaches⟩ := explores.reached B (by simp)
      exact ⟨n + 1, reaches.step (List.mem_filter.mp mem).1⟩
  listed := by
    -- what is left out of the queue has been found
    have whole : ∀ C ∈ next B, ¬ decide (C ∉ found ++ [B]) → C ∈ found ++ B :: queue := by
      intro C _ left
      have old : C ∈ found ++ [B] := not_not.mp fun other => left (decide_eq_true other)
      rw [← List.singleton_append, ← List.append_assoc]
      exact List.mem_append_left _ old
    calc ((found ++ [B]) ++ (queue ++ (next B).filter (· ∉ found ++ [B]))).eraseDups
        = ((found ++ B :: queue) ++ (next B).filter (· ∉ found ++ [B])).eraseDups := by simp
      _ = ((found ++ B :: queue) ++ next B).eraseDups := eraseDups_append_filter whole
      _ = ((found ++ B :: queue).eraseDups ++ next B).eraseDups :=
          (eraseDups_eraseDups_append _ _).symm
      _ = ((A :: found.flatMap next).eraseDups ++ next B).eraseDups := by rw [explores.listed]
      _ = ((A :: found.flatMap next) ++ next B).eraseDups := eraseDups_eraseDups_append _ _
      _ = (A :: (found ++ [B]).flatMap next).eraseDups := by simp

/-- **A step of the queue keeps the invariant.** -/
theorem Explores.step (explores : Explores next A search) :
    Explores next A (search.step next) := by
  obtain ⟨queue, found⟩ := search
  cases queue with
  | nil => exact explores
  | cons B queue =>
    by_cases old : B ∈ found
    · rw [step_of_mem old]
      exact explores.skip old
    · rw [step_of_notMem old]
      exact explores.find old

/-! ### The end of the queue -/

/-- What is still to be done: the names that wait, and one for each time that a name which has not
been found yet has another name follow from it. -/
def work (next : Name → List Name) (U : List Name) (search : Search) : Nat :=
  search.queue.length + ((U.filter (· ∉ search.found)).flatMap next).length

/-- When a name is found, the names that follow from it are no longer to come. -/
theorem length_follow_add_le (next : Name → List Name) (mem : B ∈ U) (new : B ∉ found) :
    ((U.filter (· ∉ found ++ [B])).flatMap next).length + (next B).length
      ≤ ((U.filter (· ∉ found)).flatMap next).length := by
  -- `B` is one of the names that have not been found yet, and it is the one that goes
  obtain ⟨before, after, split⟩ := List.append_of_mem
    (List.mem_filter.mpr ⟨mem, decide_eq_true new⟩ : B ∈ U.filter (· ∉ found))
  have fewer : (U.filter (· ∉ found ++ [B])).Sublist (before ++ after) := by
    have twice : U.filter (· ∉ found ++ [B]) = (U.filter (· ∉ found)).filter (· ≠ B) := by
      rw [List.filter_filter]
      refine List.filter_congr fun C _ => ?_
      simp [and_comm]
    rw [twice, split, List.filter_append, List.filter_cons_of_neg (by simp)]
    exact List.filter_sublist.append List.filter_sublist
  have short := (fewer.flatMap next).length_le
  rw [split, List.flatMap_append, List.flatMap_cons, List.length_append, List.length_append]
  rw [List.flatMap_append, List.length_append] at short
  omega

/-- **A step leaves less to do**, whether it finds a name or not. -/
theorem work_step_lt (mem : B ∈ U) :
    (step next ⟨B :: queue, found⟩).work next U < work next U ⟨B :: queue, found⟩ := by
  by_cases old : B ∈ found
  · rw [step_of_mem old]
    exact Nat.add_lt_add_right (Nat.lt_succ_self _) _
  · rw [step_of_notMem old]
    have follow := length_follow_add_le next mem old
    have some := List.length_filter_le (fun C => decide (C ∉ found ++ [B])) (next B)
    simp only [work, List.length_append, List.length_cons]
    omega

/-- **The queue is empty in the end**, after no more steps than there is to do. -/
theorem exists_repeat_eq_nil (stays : ∀ B ∈ U, ∀ C ∈ next B, C ∈ U) (hA : A ∈ U)
    (explores : Explores next A search) :
    ∃ n ≤ search.work next U, ∃ found,
      Nat.repeat (step next) n search = ⟨[], found⟩ ∧ Explores next A ⟨[], found⟩ := by
  -- the induction is on what is still to be done; the number of names that wait may grow
  induction todo : search.work next U using Nat.strong_induction_on generalizing search with
  | h bound ih =>
    obtain ⟨queue, found⟩ := search
    cases queue with
    | nil => exact ⟨0, Nat.zero_le _, found, rfl, explores⟩
    | cons B queue =>
      -- what waits is reached, so it is counted
      obtain ⟨_, reaches⟩ := explores.reached B (by simp)
      have less : (step next ⟨B :: queue, found⟩).work next U < bound :=
        todo ▸ work_step_lt (reaches.mem stays hA)
      obtain ⟨n, le, last, ends, done⟩ := ih _ less explores.step rfl
      exact ⟨n + 1, Nat.lt_of_le_of_lt le less, last, by rw [repeat_succ_apply, ends], done⟩

/-! ### What the queue finds -/

/-- With nothing left in the queue, what is found is what follows from it. -/
theorem Explores.found_eq_eraseDups (done : Explores next A ⟨[], found⟩) :
    found = (A :: found.flatMap next).eraseDups := by
  have listed := done.listed
  rwa [List.append_nil, eraseDups_of_nodup done.nodup] at listed

/-- **Every round gives a beginning of what the queue finds.** -/
theorem Explores.prefix_rounds (done : Explores next A ⟨[], found⟩) (n : Nat) :
    Nat.repeat (spread next) n [A] <+: found := by
  have closed := done.found_eq_eraseDups
  induction n with
  | zero =>
    rw [closed, List.eraseDups_cons]
    exact ⟨_, rfl⟩
  | succ n ih =>
    change spread next (Nat.repeat (spread next) n [A]) <+: found
    have start : A ∈ Nat.repeat (spread next) n [A] :=
      subset_repeat_spread (List.mem_singleton.mpr rfl) n
    generalize Nat.repeat (spread next) n [A] = front at ih start ⊢
    -- what follows from the beginning stands at the beginning of what follows from everything
    have begins : (A :: front.flatMap next).eraseDups <+: found := by
      obtain ⟨rest, rfl⟩ := ih
      rw [List.flatMap_append, ← List.cons_append, List.eraseDups_append] at closed
      exact ⟨_, closed.symm⟩
    rw [spread, ← eraseDups_append_cons start]
    exact eraseDups_append_prefix done.nodup ih begins

/-- **The queue finds what the rounds find**, and in the same order. -/
theorem Explores.found_eq (stays : ∀ B ∈ U, ∀ C ∈ next B, C ∈ U) (hA : A ∈ U)
    (done : Explores next A ⟨[], found⟩) : found = (settle (spread next) U.length [A]).2 := by
  have front := done.prefix_rounds U.length
  rw [← settle_snd] at front
  -- all that is found can be reached, and the rounds find all of that
  have all : ∀ B ∈ found, B ∈ (settle (spread next) U.length [A]).2 := fun B mem =>
    (mem_settle_spread_iff stays hA).mpr (done.reached B (List.mem_append_left _ mem))
  exact (front.eq_of_length_le (done.nodup.length_le_of_subset all)).symm

/-- **The names are found in the order of their distances**: a name that stands before another one
is reached in no more steps. -/
theorem Explores.pairwise (done : Explores next A ⟨[], found⟩) :
    found.Pairwise fun B C => ∀ n, Reaches next A n C → ∃ m ≤ n, Reaches next A m B := by
  refine List.pairwise_iff_forall_sublist.mpr fun {B C} before n reaches => ?_
  refine mem_repeat_spread_iff.mp ?_
  -- a round that finds `C` gives a beginning in which `C` stands, and `B` before it
  have hC : C ∈ Nat.repeat (spread next) n [A] :=
    mem_repeat_spread_iff.mpr ⟨n, Nat.le_refl n, reaches⟩
  obtain ⟨rest, whole⟩ := done.prefix_rounds n
  have nodup : (Nat.repeat (spread next) n [A] ++ rest).Nodup := whole ▸ done.nodup
  rw [← whole] at before
  generalize Nat.repeat (spread next) n [A] = front at hC nodup before ⊢
  by_contra hB
  have later : [B, C].Sublist rest := by
    obtain ⟨some, others, split, within, sub⟩ := List.sublist_append_iff.mp before
    cases some with
    | nil => exact split ▸ sub
    | cons D some =>
      obtain rfl := (List.cons.inj split).1
      exact absurd (within.subset List.mem_cons_self) hB
  exact (List.nodup_append.mp nodup).2.2 C hC C (later.subset (by simp)) rfl

end Search

/-! ### Accessible non-terminals -/

namespace Grammar

variable {G : Grammar} {A : Name} {n : Nat}

/-- The **distance** of a non-terminal from the start symbol is the least number of steps in which
it is reached, each going through one production. -/
def IsDistance (G : Grammar) (A : Name) (n : Nat) : Prop := IsLeast {n | G.ReachedIn n A} n

open Search (Explores) in
/-- **The accessible non-terminals are what a queue finds** that starts with the start symbol. It is
empty after one step for the start symbol and at most one for each place where a body mentions a
non-terminal. -/
theorem WellFormed.exists_repeat_step (wf : G.WellFormed) :
    ∃ n ≤ 1 + (G.nonterminals.flatMap G.mentions).length,
      Nat.repeat (Search.step G.mentions) n ⟨[G.start], []⟩ = ⟨[], G.accessible⟩ ∧
        Explores G.mentions G.start ⟨[], G.accessible⟩ := by
  obtain ⟨n, le, found, ends, done⟩ := Search.exists_repeat_eq_nil wf.mentions_subset wf.start_mem
    (Search.explores_start G.mentions G.start)
  have same : found = G.accessible := by
    rw [wf.accessible_eq]
    exact done.found_eq wf.mentions_subset wf.start_mem
  rw [same] at ends done
  refine ⟨n, ?_, ends, done⟩
  -- nothing has been found at the start
  simpa [Search.work] using le

/-- **The worklist of the search for accessible non-terminals ends**, and then the accessible
non-terminals have been found, each of them once and those at a smaller distance before those at a
greater one. The pruning of the others keeps the accessible non-terminals with all their bodies, and
they are accessible still. -/
theorem WellFormed.exists_removeInaccessible (wf : G.WellFormed) :
    (∃ n ≤ 1 + (G.nonterminals.flatMap G.mentions).length,
      Nat.repeat (Search.step G.mentions) n ⟨[G.start], []⟩ = ⟨[], G.accessible⟩) ∧
    (∀ A, A ∈ G.accessible ↔ A ∈ G.nonterminals ∧ G.IsAccessible A) ∧
    G.accessible.Nodup ∧
    (G.accessible.Pairwise fun A B => ∀ m n, G.IsDistance A m → G.IsDistance B n → m ≤ n) ∧
    ∃ H, G.removeInaccessible.outcome = .ok H ∧
      G.PrunesTo H G.IsAccessible (fun _ => True) ∧
      ∀ A ∈ H.nonterminals, H.bodies A = G.bodies A ∧ H.IsAccessible A := by
  obtain ⟨n, le, ends, done⟩ := wf.exists_repeat_step
  refine ⟨⟨n, le, ends⟩, fun A => ?_, done.nodup, ?_, _, outcome_removeInaccessible,
    wf.prunesTo_restrict_accessible, fun A mem => ⟨?_, wf.isAccessible_restrict_accessible mem⟩⟩
  · rw [wf.mem_accessible_iff]
    refine (and_iff_right_of_imp ?_).symm
    rintro ⟨n, reached⟩
    exact (reachedIn_iff.mp reached).mem wf.mentions_subset wf.start_mem
  · -- the name that stands before is reached within the distance of the other one
    refine done.pairwise.imp fun {A B} closer m n hA hB => ?_
    obtain ⟨l, le, reaches⟩ := closer n (reachedIn_iff.mp hB.1)
    exact Nat.le_trans (hA.2 (reachedIn_iff.mpr reaches)) le
  · rw [bodies_restrict, if_pos (List.mem_filter.mp mem).2]

/-- The grammar `S → A B A | b`, `A → B C`, `B → A B | b`, `C → S`, `D → C`. The queue comes to hold
`A` and `B` more than once. -/
def crossroads : Grammar where
  start := .ofCons 'S' []
  nonterminals := [.ofCons 'S' [], .ofCons 'D' [], .ofCons 'C' [], .ofCons 'B' [], .ofCons 'A' []]
  terminals := [.ofCons 'b' []]
  rules := [
    ⟨.ofCons 'S' [],
      [[.nonterminal (.ofCons 'A' []), .nonterminal (.ofCons 'B' []),
          .nonterminal (.ofCons 'A' [])],
        [.terminal (.ofCons 'b' [])]]⟩,
    ⟨.ofCons 'D' [], [[.nonterminal (.ofCons 'C' [])]]⟩,
    ⟨.ofCons 'C' [], [[.nonterminal (.ofCons 'S' [])]]⟩,
    ⟨.ofCons 'B' [],
      [[.nonterminal (.ofCons 'A' []), .nonterminal (.ofCons 'B' [])],
        [.terminal (.ofCons 'b' [])]]⟩,
    ⟨.ofCons 'A' [], [[.nonterminal (.ofCons 'B' []), .nonterminal (.ofCons 'C' [])]]⟩]

/-- Two steps lead from `S` to `C`, which is found last, and no step to `D`. -/
theorem crossroads_removeInaccessible :
    crossroads.WellFormed ∧
      Nat.repeat (Search.step crossroads.mentions) 2 ⟨[.ofCons 'S' []], []⟩ =
        ⟨[.ofCons 'B' [], .ofCons 'A' [], .ofCons 'B' [], .ofCons 'C' []],
          [.ofCons 'S' [], .ofCons 'A' []]⟩ ∧
      crossroads.accessible =
        [.ofCons 'S' [], .ofCons 'A' [], .ofCons 'B' [], .ofCons 'C' []] ∧
      ∃ H, crossroads.removeInaccessible.outcome = .ok H ∧
        crossroads.PrunesTo H crossroads.IsAccessible (fun _ => True) ∧
        H.nonterminals = [.ofCons 'S' [], .ofCons 'C' [], .ofCons 'B' [], .ofCons 'A' []] := by
  have wf : crossroads.WellFormed := wellFormed_iff_ofRows?_eq_ok.mpr rfl
  obtain ⟨_, _, _, _, H, ok, prunes, _⟩ := wf.exists_removeInaccessible
  refine ⟨wf, by decide +kernel, by decide +kernel, H, ok, prunes, ?_⟩
  rw [← Except.ok.inj (outcome_removeInaccessible.symm.trans ok)]
  decide +kernel

end Grammar

end ContextFree
