import ContextFree.Binary
import Mathlib.Data.List.Nodup

/-!
# Isolating and peeling, taken back

A numbered name that was brought in by peeling stands for a beginning of the body that was peeled,
its **block**. Putting blocks in the place of their names takes peeling back: what is left of a
body unfolds to the body (`Body.flatMap_peel`), and the pair that was replaced by a name unfolds to
the block of the name. An **unfolding** is a function from symbols to bodies; that it sends the
numbered names from `k` on to the blocks of a list is said by `UnfoldsFrom`, which splits along the
list (`unfoldsFrom_append_iff`). So the bodies of a rule, and then the rules of a grammar, can be
gone through one by one, each with the numbers that it takes.

Independently of any unfolding, peeling takes as many names as there are blocks, and where only
non-terminals are peeled it leaves pairs of non-terminals.
-/

namespace ContextFree

/-- An unfolding sends the numbered names from `k` on to the blocks of a list. -/
def UnfoldsFrom (unfold : Symbol → Body) (k : Nat) (blocks : List Body) : Prop :=
  ∀ i block, blocks[i]? = some block → unfold (.nonterminal (.numbered (k + i))) = block

theorem unfoldsFrom_append_iff {unfold : Symbol → Body} {k : Nat} {xs ys : List Body} :
    UnfoldsFrom unfold k (xs ++ ys) ↔
      UnfoldsFrom unfold k xs ∧ UnfoldsFrom unfold (k + xs.length) ys := by
  refine ⟨fun h => ⟨?_, ?_⟩, fun ⟨hx, hy⟩ i block found => ?_⟩
  · intro i block found
    refine h i block ?_
    rw [List.getElem?_append_left (List.getElem?_eq_some_iff.mp found).1]
    exact found
  · intro i block found
    rw [Nat.add_assoc]
    refine h (xs.length + i) block ?_
    rw [List.getElem?_append_right (Nat.le_add_right _ _), Nat.add_sub_cancel_left]
    exact found
  · by_cases hi : i < xs.length
    · rw [List.getElem?_append_left hi] at found
      exact hx i block found
    · rw [List.getElem?_append_right (by omega)] at found
      have := hy (i - xs.length) block found
      rwa [show k + xs.length + (i - xs.length) = k + i by omega] at this

namespace Body

variable {unfold : Symbol → Body} {k : Nat}

/-- A body of two non-terminals. -/
def IsPair (body : Body) : Prop := ∃ B C, body = [.nonterminal B, .nonterminal C]

/-- The beginnings of a body that peeling brings in names for: those of at least two symbols that
are not the whole body. -/
def blocks (body : Body) : List Body :=
  (List.range (body.length - 2)).map fun i => body.take (i + 2)

theorem length_blocks (body : Body) : body.blocks.length = body.length - 2 := by
  rw [blocks, List.length_map, List.length_range]

theorem mem_blocks_iff {body block : Body} :
    block ∈ body.blocks ↔ block <+: body ∧ 2 ≤ block.length ∧ block.length < body.length := by
  rw [blocks, List.mem_map]
  refine ⟨?_, fun ⟨pre, long, short⟩ => ⟨block.length - 2, ?_, ?_⟩⟩
  · rintro ⟨i, hi, rfl⟩
    rw [List.mem_range] at hi
    have length : (body.take (i + 2)).length = i + 2 := by
      rw [List.length_take]
      omega
    exact ⟨List.take_prefix _ _, by omega, by omega⟩
  · rw [List.mem_range]
    omega
  · rw [Nat.sub_add_cancel long]
    exact (List.prefix_iff_eq_take.mp pre).symm

/-! ### One body -/

/-- **Peeling, taken back**, for a body given by its first two symbols and the others. -/
theorem flatMap_peelFrom {first second : Symbol} {others : List Symbol}
    (fresh : ∀ i < others.length, unfold (.nonterminal (.numbered (k + i)))
      = (first :: second :: others.take i).flatMap unfold) :
    (peelFrom k first second others).1.flatMap unfold = (first :: second :: others).flatMap unfold ∧
      (peelFrom k first second others).2.map (·.flatMap unfold)
        = (List.range others.length).map fun i =>
            (first :: second :: others.take i).flatMap unfold := by
  induction others generalizing k first second with
  | nil => exact ⟨rfl, rfl⟩
  | cons third others ih =>
    -- the new first symbol unfolds to the two that it replaces
    have pair : unfold (.nonterminal (.numbered k)) = unfold first ++ unfold second := by
      simpa using fresh 0 (Nat.succ_pos _)
    have longer : ∀ rest : List Symbol,
        (.nonterminal (.numbered k) :: third :: rest).flatMap unfold
          = (first :: second :: third :: rest).flatMap unfold := by
      intro rest
      simp only [List.flatMap_cons, pair, List.append_assoc]
    -- so the later names, seen from the new first symbol, stand for the same blocks
    have later : ∀ i < others.length, unfold (.nonterminal (.numbered (k + 1 + i)))
        = (.nonterminal (.numbered k) :: third :: others.take i).flatMap unfold := by
      intro i hi
      rw [longer, show k + 1 + i = k + (i + 1) by omega]
      exact fresh (i + 1) (Nat.succ_lt_succ hi)
    obtain ⟨left, pairs⟩ := ih later
    refine ⟨left.trans (longer others), ?_⟩
    rw [peelFrom, List.map_cons, pairs, List.length_cons, List.range_succ_eq_map, List.map_cons,
      List.map_map]
    refine congrArg₂ List.cons rfl (List.map_congr_left fun i _ => ?_)
    rw [longer]
    rfl

/-- A body whose symbols unfold to those of another one, one to one, unfolds to that body. -/
theorem flatMap_take_of_map_eq {folded body : Body} (h : folded.map unfold = body.map ([·]))
    (n : Nat) : (folded.take n).flatMap unfold = body.take n := by
  rw [List.flatMap_def, List.map_take, h, ← List.map_take, ← List.flatMap_def,
    List.flatMap_singleton']

/-- **Peeling, taken back**: what is left unfolds to the body, and the pairs to its blocks. -/
theorem flatMap_peel {folded body : Body} (h : folded.map unfold = body.map ([·]))
    (fresh : UnfoldsFrom unfold k body.blocks) :
    (peel k folded).1.flatMap unfold = body ∧
      (peel k folded).2.map (·.flatMap unfold) = body.blocks := by
  have length : folded.length = body.length := by
    simpa using congrArg List.length h
  have whole : folded.flatMap unfold = body := by
    have := flatMap_take_of_map_eq h body.length
    rwa [← length, List.take_length, length, List.take_length] at this
  -- a body of at most one symbol has no blocks and is not peeled
  match folded, h, length, whole with
  | [], _, length, whole =>
    refine ⟨whole, ?_⟩
    rw [blocks, ← length]
    rfl
  | [_], _, length, whole =>
    refine ⟨whole, ?_⟩
    rw [blocks, ← length]
    rfl
  | first :: second :: others, h, length, whole =>
    have few : others.length = body.length - 2 := by
      rw [← length]
      rfl
    have block : ∀ i, (first :: second :: others.take i).flatMap unfold = body.take (i + 2) :=
      fun i => flatMap_take_of_map_eq h (i + 2)
    have named : ∀ i < others.length, unfold (.nonterminal (.numbered (k + i)))
        = (first :: second :: others.take i).flatMap unfold := by
      intro i hi
      rw [block]
      refine fresh i _ ?_
      rw [blocks, List.getElem?_map, List.getElem?_range (by omega)]
      rfl
    obtain ⟨left, pairs⟩ := flatMap_peelFrom named
    refine ⟨left.trans whole, pairs.trans ?_⟩
    rw [blocks, few]
    exact List.map_congr_left fun i _ => block i

/-- Peeling non-terminals leaves pairs of non-terminals, and replaces such pairs only. -/
theorem isPair_peelFrom {first second : Symbol} {others : List Symbol}
    (h : ∀ s ∈ first :: second :: others, ∃ A, s = .nonterminal A) :
    IsPair (peelFrom k first second others).1 ∧
      ∀ pair ∈ (peelFrom k first second others).2, IsPair pair := by
  induction others generalizing k first second with
  | nil =>
    obtain ⟨B, rfl⟩ := h first List.mem_cons_self
    obtain ⟨C, rfl⟩ := h second (List.mem_cons_of_mem _ List.mem_cons_self)
    exact ⟨⟨B, C, rfl⟩, by simp [peelFrom]⟩
  | cons third others ih =>
    obtain ⟨B, rfl⟩ := h first List.mem_cons_self
    obtain ⟨C, rfl⟩ := h second (List.mem_cons_of_mem _ List.mem_cons_self)
    -- what is left to peel begins with a name that was just brought in
    have rest : ∀ s ∈ .nonterminal (.numbered k) :: third :: others, ∃ A, s = .nonterminal A := by
      intro s hs
      rcases List.mem_cons.mp hs with rfl | hs
      · exact ⟨_, rfl⟩
      · exact h s (List.mem_cons_of_mem _ (List.mem_cons_of_mem _ hs))
    obtain ⟨left, pairs⟩ := @ih (k + 1) _ _ rest
    refine ⟨left, fun pair mem => ?_⟩
    rcases List.mem_cons.mp mem with rfl | mem
    · exact ⟨B, C, rfl⟩
    · exact pairs pair mem

theorem length_peel_snd (k : Nat) (body : Body) : (peel k body).2.length = body.length - 2 := by
  match body with
  | [] => rfl
  | [_] => rfl
  | first :: second :: others => exact length_peelFrom_snd k first second others

/-! ### Isolated terminals -/

section Isolate

variable {crowded : List Name} {body : Body}

theorem mem_crowdedTerminals_iff {a : Name} :
    a ∈ body.crowdedTerminals ↔ 2 ≤ body.length ∧ .terminal a ∈ body := by
  unfold crowdedTerminals
  split
  · next long => rw [mem_terminals, and_iff_right long]
  · next short => simp [short]

theorem isolate_of_short (h : body.length < 2) : isolate k crowded body = body := by
  rw [isolate, if_pos h]

theorem length_isolate : (isolate k crowded body).length = body.length := by
  unfold isolate
  split
  · rfl
  · rw [List.length_map]

theorem exists_nonterminal_of_mem_isolate (h : 2 ≤ body.length) {s : Symbol}
    (hs : s ∈ isolate k crowded body) : ∃ A, s = .nonterminal A := by
  rw [isolate, if_neg (by omega), List.mem_map] at hs
  obtain ⟨t, _, rfl⟩ := hs
  cases t with
  | terminal a => exact ⟨_, rfl⟩
  | nonterminal A => exact ⟨A, rfl⟩

/-- **Isolating, taken back.** -/
theorem map_isolate (terminal : ∀ a, unfold (.terminal a) = [.terminal a])
    (nonterminal : ∀ A, .nonterminal A ∈ body → unfold (.nonterminal A) = [.nonterminal A])
    (crowd : ∀ a ∈ body.crowdedTerminals, a ∈ crowded)
    (fresh : UnfoldsFrom unfold k (crowded.map fun a => [.terminal a])) :
    (isolate k crowded body).map unfold = body.map ([·]) := by
  by_cases short : body.length < 2
  · rw [isolate_of_short short]
    refine List.map_congr_left fun s hs => ?_
    cases s with
    | terminal a => exact terminal a
    | nonterminal A => exact nonterminal A hs
  · rw [isolate, if_neg short, List.map_map]
    refine List.map_congr_left fun s hs => ?_
    cases s with
    | terminal a =>
      -- the name of an isolated terminal is found at the place of the terminal
      have mem : a ∈ crowded := by
        refine crowd a ?_
        rw [crowdedTerminals, if_pos (by omega)]
        exact mem_terminals.mpr hs
      refine fresh (crowded.idxOf a) _ ?_
      rw [List.getElem?_map, List.getElem?_idxOf mem]
      rfl
    | nonterminal A => exact nonterminal A hs

theorem peel_of_short (h : body.length < 2) : peel k body = (body, []) := by
  match body with
  | [] => rfl
  | [_] => rfl
  | _ :: _ :: _ =>
    rw [List.length_cons, List.length_cons] at h
    omega

/-- A longer body is isolated and peeled down to a pair of non-terminals, and only such pairs are
replaced on the way. -/
theorem isPair_peel_isolate {l : Nat} (h : 2 ≤ body.length) :
    IsPair (peel l (isolate k crowded body)).1 ∧
      ∀ pair ∈ (peel l (isolate k crowded body)).2, IsPair pair := by
  have nonterminals := fun s => @exists_nonterminal_of_mem_isolate k crowded body h s
  have length := @length_isolate k crowded body
  match isolate k crowded body, nonterminals, length with
  | [], _, length =>
    rw [← length] at h
    simp at h
  | [_], _, length =>
    rw [← length] at h
    simp at h
  | first :: second :: others, nonterminals, _ => exact isPair_peelFrom nonterminals

end Isolate

/-! ### Several bodies -/

section Several

variable {fold : Body → Body} {bodies : List Body}

theorem peelAll_cons (k : Nat) (body : Body) (bodies : List Body) :
    peelAll k (body :: bodies) =
      ((peel k body).1 :: (peelAll (k + (peel k body).2.length) bodies).1,
        (peel k body).2 ++ (peelAll (k + (peel k body).2.length) bodies).2) := rfl

theorem map_flatMap_peelAll (h : ∀ body ∈ bodies, (fold body).map unfold = body.map ([·]))
    (fresh : UnfoldsFrom unfold k (bodies.flatMap blocks)) :
    (peelAll k (bodies.map fold)).1.map (·.flatMap unfold) = bodies ∧
      (peelAll k (bodies.map fold)).2.map (·.flatMap unfold) = bodies.flatMap blocks := by
  induction bodies generalizing k with
  | nil => exact ⟨rfl, rfl⟩
  | cons body bodies ih =>
    rw [List.flatMap_cons, unfoldsFrom_append_iff] at fresh
    obtain ⟨left, pairs⟩ := flatMap_peel (h body List.mem_cons_self) fresh.1
    -- the numbers of the next body begin behind those that this one takes
    have taken : (peel k (fold body)).2.length = body.blocks.length := by
      rw [← pairs, List.length_map]
    obtain ⟨lefts, more⟩ := ih (fun body mem => h body (List.mem_cons_of_mem _ mem)) fresh.2
    rw [← taken] at lefts more
    refine ⟨congrArg₂ List.cons left lefts, ?_⟩
    rw [List.map_cons, peelAll_cons, List.map_append, pairs, more, List.flatMap_cons]

theorem length_peelAll_snd (h : ∀ body, (fold body).length = body.length) :
    (peelAll k (bodies.map fold)).2.length = (bodies.flatMap blocks).length := by
  induction bodies generalizing k with
  | nil => rfl
  | cons body bodies ih =>
    rw [List.map_cons, peelAll_cons, List.length_append, ih, length_peel_snd, h, List.flatMap_cons,
      List.length_append, length_blocks]

theorem exists_of_mem_peelAll_fst {left : Body} (mem : left ∈ (peelAll k bodies).1) :
    ∃ body ∈ bodies, ∃ l, left = (peel l body).1 := by
  induction bodies generalizing k with
  | nil => cases mem
  | cons body bodies ih =>
    rcases List.mem_cons.mp mem with rfl | mem
    · exact ⟨body, List.mem_cons_self, k, rfl⟩
    · obtain ⟨body, hbody, l, eq⟩ := ih mem
      exact ⟨body, List.mem_cons_of_mem _ hbody, l, eq⟩

theorem exists_of_mem_peelAll_snd {pair : Body} (mem : pair ∈ (peelAll k bodies).2) :
    ∃ body ∈ bodies, ∃ l, pair ∈ (peel l body).2 := by
  induction bodies generalizing k with
  | nil => cases mem
  | cons body bodies ih =>
    rcases List.mem_append.mp mem with mem | mem
    · exact ⟨body, List.mem_cons_self, k, mem⟩
    · obtain ⟨body, hbody, l, eq⟩ := ih mem
      exact ⟨body, List.mem_cons_of_mem _ hbody, l, eq⟩

/-- Bodies of at most one symbol are neither isolated nor peeled, and no longer body becomes
one of them. -/
theorem filter_short_peelAll {l : Nat} {crowded : List Name} :
    (peelAll l (bodies.map (isolate k crowded))).1.filter (·.length < 2)
      = bodies.filter (·.length < 2) := by
  induction bodies generalizing l with
  | nil => rfl
  | cons body bodies ih =>
    rw [List.map_cons, peelAll_cons]
    by_cases short : body.length < 2
    · rw [isolate_of_short short, peel_of_short short]
      rw [List.filter_cons_of_pos (by simpa using short),
        List.filter_cons_of_pos (by simpa using short), ih]
    · -- a longer body comes down to a pair, which is not short either
      obtain ⟨⟨B, C, pair⟩, _⟩ := @isPair_peel_isolate k crowded body l (by omega)
      rw [pair, List.filter_cons_of_neg (by simp),
        List.filter_cons_of_neg (by simpa using short), ih]

/-- Bodies of at most one symbol are left alone. -/
theorem peelAll_of_short (short : ∀ body ∈ bodies, body.length < 2) :
    peelAll k bodies = (bodies, []) := by
  induction bodies generalizing k with
  | nil => rfl
  | cons body bodies ih =>
    obtain ⟨first, others⟩ := List.forall_mem_cons.mp short
    rw [peelAll_cons, peel_of_short first, ih others, List.nil_append]

end Several

end Body

namespace Grammar

variable {unfold : Symbol → Body} {k : Nat} {fold : Body → Body} {rules : List (Rule Body)}

/-! ### Several rules -/

/-- The rules with a function applied to each of their bodies. -/
def mapBodies (f : Body → Body) (rules : List (Rule Body)) : List (Rule Body) :=
  rules.map fun rule => ⟨rule.lhs, rule.bodies.map f⟩

/-- **Peeling rules, taken back.** -/
theorem mapBodies_peelRules
    (h : ∀ rule ∈ rules, ∀ body ∈ rule.bodies, (fold body).map unfold = body.map ([·]))
    (fresh : UnfoldsFrom unfold k (rules.flatMap fun rule => rule.bodies.flatMap Body.blocks)) :
    mapBodies (·.flatMap unfold) (peelRules k (mapBodies fold rules)).1 = rules ∧
      (peelRules k (mapBodies fold rules)).2.map (·.flatMap unfold)
        = rules.flatMap fun rule => rule.bodies.flatMap Body.blocks := by
  induction rules generalizing k with
  | nil => exact ⟨rfl, rfl⟩
  | cons rule rules ih =>
    rw [List.flatMap_cons, unfoldsFrom_append_iff] at fresh
    obtain ⟨lefts, pairs⟩ := Body.map_flatMap_peelAll (h rule List.mem_cons_self) fresh.1
    have taken : (Body.peelAll k (rule.bodies.map fold)).2.length
        = (rule.bodies.flatMap Body.blocks).length := by
      rw [← pairs, List.length_map]
    obtain ⟨others, more⟩ := ih (fun rule mem => h rule (List.mem_cons_of_mem _ mem)) fresh.2
    rw [← taken] at others more
    refine ⟨?_, ?_⟩
    · refine congrArg₂ List.cons ?_ others
      exact congrArg (Rule.mk rule.lhs) lefts
    · rw [mapBodies, List.map_cons, peelRules, List.map_append, pairs, List.flatMap_cons]
      exact congrArg _ more

theorem length_peelRules_snd (h : ∀ body, (fold body).length = body.length) :
    (peelRules k (mapBodies fold rules)).2.length
      = (rules.flatMap fun rule => rule.bodies.flatMap Body.blocks).length := by
  induction rules generalizing k with
  | nil => rfl
  | cons rule rules ih =>
    rw [mapBodies, List.map_cons, peelRules, List.length_append, Body.length_peelAll_snd h,
      List.flatMap_cons, List.length_append]
    exact congrArg _ ih

theorem leftSides_peelRules : (peelRules k rules).1.map (·.lhs) = rules.map (·.lhs) := by
  induction rules generalizing k with
  | nil => rfl
  | cons rule rules ih => exact congrArg (List.cons rule.lhs) ih

theorem exists_of_mem_peelRules_fst {peeled : Rule Body} (mem : peeled ∈ (peelRules k rules).1) :
    ∃ rule ∈ rules, ∃ l, peeled = ⟨rule.lhs, (Body.peelAll l rule.bodies).1⟩ := by
  induction rules generalizing k with
  | nil => cases mem
  | cons rule rules ih =>
    rcases List.mem_cons.mp mem with rfl | mem
    · exact ⟨rule, List.mem_cons_self, k, rfl⟩
    · obtain ⟨rule, hrule, l, eq⟩ := ih mem
      exact ⟨rule, List.mem_cons_of_mem _ hrule, l, eq⟩

theorem exists_of_mem_peelRules_snd {pair : Body} (mem : pair ∈ (peelRules k rules).2) :
    ∃ rule ∈ rules, ∃ l, pair ∈ (Body.peelAll l rule.bodies).2 := by
  induction rules generalizing k with
  | nil => cases mem
  | cons rule rules ih =>
    rcases List.mem_append.mp mem with mem | mem
    · exact ⟨rule, List.mem_cons_self, k, mem⟩
    · obtain ⟨rule, hrule, l, eq⟩ := ih mem
      exact ⟨rule, List.mem_cons_of_mem _ hrule, l, eq⟩

/-- Rules that have only bodies of at most one symbol are left alone. -/
theorem peelRules_of_short (short : ∀ rule ∈ rules, ∀ body ∈ rule.bodies, body.length < 2) :
    peelRules k rules = (rules, []) := by
  induction rules generalizing k with
  | nil => rfl
  | cons rule rules ih =>
    obtain ⟨first, others⟩ := List.forall_mem_cons.mp short
    rw [peelRules, Body.peelAll_of_short first]
    simp only [ih others, List.nil_append]

end Grammar

end ContextFree
