import ContextFree.Proofs.BinaryForm
import Mathlib.Algebra.BigOperators.Group.List.Basic
import Mathlib.Algebra.Order.Ring.Nat
import Mathlib.Data.List.Perm.Basic
import Mathlib.Order.Bounds.Basic

/-!
# What comes of a binarization

How many names the binary form of a grammar takes can be read off the bodies of the grammar
(`Grammar.freshCount`). It is one for each block (`Grammar.WellFormed.length_blocks`), because a
terminal is isolated once for all bodies. The binary form has one production more for each of them
(`Grammar.productionCount_binaryForm`), and no two bodies of a rule become the same on the way
(`Grammar.nodup_isolatedRules`).

With the first number of a supply that cannot be used, this tells what comes of a binarization: the
grammar, or else the failure, and where the supply is afterwards
(`Grammar.WellFormed.binarizesFrom_binarizeWith`).
-/

namespace ContextFree

namespace Grammar

open NameSupply (answer)

variable {G : Grammar} {k : Nat}

/-! ### How many names are needed -/

/-- The terminal stands in a body of two or more symbols. -/
def IsCrowded (G : Grammar) (a : Name) : Prop :=
  ∃ rule ∈ G.rules, ∃ body ∈ rule.bodies, 2 ≤ body.length ∧ .terminal a ∈ body

instance (G : Grammar) : DecidablePred G.IsCrowded := fun a =>
  inferInstanceAs (Decidable (∃ rule ∈ G.rules, ∃ body ∈ rule.bodies,
    2 ≤ body.length ∧ Symbol.terminal a ∈ body))

/-- The number of names that the binary form takes: one for each terminal in bodies of two or more
symbols, and in each body one for every symbol beyond the second. -/
def freshCount (G : Grammar) : Nat :=
  (G.terminals.filter (G.IsCrowded ·)).length +
    (((G.rules.flatMap (·.bodies)).filter (2 < ·.length)).map (·.length - 2)).sum

theorem mem_crowdedTerminals_iff {a : Name} : a ∈ G.crowdedTerminals ↔ G.IsCrowded a := by
  rw [crowdedTerminals, List.mem_eraseDups, List.mem_flatMap]
  refine exists_congr fun rule => and_congr_right fun _ => ?_
  rw [List.mem_flatMap]
  exact exists_congr fun body => and_congr_right fun _ => Body.mem_crowdedTerminals_iff

/-- Each terminal is isolated once, whichever bodies it stands in. -/
theorem WellFormed.length_crowdedTerminals (wf : G.WellFormed) :
    G.crowdedTerminals.length = (G.terminals.filter (G.IsCrowded ·)).length := by
  have crowded : G.crowdedTerminals.Nodup := nodup_eraseDups _
  have declared : (G.terminals.filter (G.IsCrowded ·)).Nodup := wf.terminals_nodup.filter _
  -- neither list has a repetition, so it is enough that they have the same members
  refine ((List.perm_ext_iff_of_nodup crowded declared).mpr fun a => ?_).length_eq
  rw [List.mem_filter, mem_crowdedTerminals_iff, decide_eq_true_iff]
  -- what stands in a body is declared
  refine ⟨fun h => ⟨?_, h⟩, And.right⟩
  exact wf.declares_of_mem_crowdedTerminals (mem_crowdedTerminals_iff.mpr h)

theorem length_flatMap_blocks (bodies : List Body) :
    (bodies.flatMap Body.blocks).length
      = ((bodies.filter (2 < ·.length)).map (·.length - 2)).sum := by
  induction bodies with
  | nil => rfl
  | cons body bodies ih =>
    rw [List.flatMap_cons, List.length_append, Body.length_blocks, ih]
    by_cases long : 2 < body.length
    · rw [List.filter_cons_of_pos (by simpa using long), List.map_cons, List.sum_cons]
    · -- a body of at most two symbols has no blocks
      rw [List.filter_cons_of_neg (by simpa using long)]
      omega

/-- **As many names are needed as there are blocks.** -/
theorem WellFormed.length_blocks (wf : G.WellFormed) : G.blocks.length = G.freshCount := by
  have peeled : (G.rules.flatMap fun rule => rule.bodies.flatMap Body.blocks)
      = (G.rules.flatMap (·.bodies)).flatMap Body.blocks := List.flatMap_assoc.symm
  rw [blocks, List.length_append, List.length_map, wf.length_crowdedTerminals, peeled,
    length_flatMap_blocks, freshCount]

/-! ### How many bodies there are -/

theorem productionCount_eq_sum (G : Grammar) :
    G.productionCount = (G.rules.map (·.bodies.length)).sum := by
  unfold productionCount countBodies
  induction G.rules with
  | nil => rfl
  | cons rule rules ih => rw [List.foldr_cons, ih, List.map_cons, List.sum_cons]

theorem sum_length_mapBodies (f : Body → Body) (rules : List (Rule Body)) :
    ((mapBodies f rules).map (·.bodies.length)).sum = (rules.map (·.bodies.length)).sum := by
  rw [mapBodies, List.map_map]
  refine congrArg List.sum (List.map_congr_left fun rule _ => ?_)
  exact List.length_map _

theorem sum_length_freshRules (G : Grammar) (k : Nat) :
    ((G.freshRules k).map (·.bodies.length)).sum = G.blocks.length := by
  have one : (G.freshRules k).map (·.bodies.length) = (G.freshRules k).map fun _ => 1 := by
    refine List.map_congr_left fun rule hrule => ?_
    obtain ⟨_, _, rfl⟩ := List.mem_map.mp hrule
    rfl
  rw [one, List.map_const', List.sum_replicate_nat, freshRules, List.length_map, List.length_zipIdx,
    length_freshBodies, Nat.mul_one]

/-- The binary form has one production more for each name that it takes. -/
theorem productionCount_binaryForm (wf : G.WellFormed) (room : G.HasRoom k) :
    (G.binaryForm k).productionCount = G.productionCount + G.blocks.length := by
  have old : ((G.peeled k).1.map (·.bodies.length)).sum = G.productionCount := by
    -- taking the binary form back goes body by body
    rw [productionCount_eq_sum, ← (unfold_binaryForm wf room).1, sum_length_mapBodies]
  rw [productionCount_eq_sum, binaryForm, List.map_append, List.sum_append, old,
    sum_length_freshRules]

/-- Isolating makes no two bodies of a rule the same. -/
theorem nodup_isolatedRules (wf : G.WellFormed) (room : G.HasRoom k) {isolated : Rule Body}
    (mem : isolated ∈ G.isolatedRules k) : isolated.bodies.Nodup := by
  obtain ⟨rule, hrule, rfl⟩ := List.mem_map.mp mem
  refine (wf.bodies_nodup rule hrule).map_on fun body hbody other hother same => ?_
  -- taken back symbol by symbol, one isolated body gives both bodies
  have symbols : body.map ([·]) = other.map ([·]) := by
    rw [← map_unfold_isolate wf room hrule hbody, same, map_unfold_isolate wf room hrule hother]
  exact List.map_injective_iff.mpr (fun _ _ eq => List.singleton_inj.mp eq) symbols

/-! ### What comes of a binarization -/

/-- What comes of a binarization that needs the `f` names numbered from `k` on. Numbers have 64
bits. -/
structure BinarizesFrom (G : Grammar) (k f : Nat) (result : NameSupply × Report Grammar) :
    Prop where
  /-- It succeeds if no name is needed, and also if there are enough numbers and none of the names
  is taken. -/
  ok_iff : (∃ H, result.2.outcome = .ok H) ↔
    f = 0 ∨ k + f ≤ 2 ^ 64 - 1 ∧ ∀ m, k ≤ m → m < k + f → ¬ G.IsTaken m
  /-- Then the names are new non-terminals, in the order of their numbers, there is one production
  more for each of them, and the supply has passed them all. -/
  of_ok : ∀ H, result.2.outcome = .ok H →
    H.nonterminals = G.nonterminals ++ (List.range' k f).map Name.numbered ∧
      H.productionCount = G.productionCount + f ∧ result.1 = ⟨k + f⟩
  /-- Neither isolating nor peeling makes two bodies of a rule the same. -/
  nodup_of_ok : ∀ H, result.2.outcome = .ok H →
    (∀ rule ∈ G.isolatedRules k, rule.bodies.Nodup) ∧ ∀ rule ∈ H.rules, rule.bodies.Nodup
  /-- If it fails and one of the names is taken, the first of these is reported, and the supply has
  just passed it. The last number of all is never looked at. -/
  nameTaken : (¬ ∃ H, result.2.outcome = .ok H) →
    ∀ m, IsLeast {m | k ≤ m ∧ m < k + f ∧ G.IsTaken m} m → m ≤ 2 ^ 64 - 2 →
      result.2.outcome = .error (.nameTaken (.numbered m)) ∧ result.1 = ⟨m + 1⟩
  /-- If it fails without such a name, the numbers have run out, and the supply is at the last. -/
  namesExhausted : (¬ ∃ H, result.2.outcome = .ok H) →
    (¬ ∃ m, IsLeast {m | k ≤ m ∧ m < k + f ∧ G.IsTaken m} m ∧ m ≤ 2 ^ 64 - 2) →
      result.2.outcome = .error .namesExhausted ∧ result.1 = ⟨2 ^ 64 - 1⟩

/-- **Binarization is the handing out of names**: it comes to the binary form, or to the failure
that handing out the names comes to, and leaves the supply as that leaves it. -/
theorem answer_binarizeWith {supply rest : NameSupply} {outcome : Except Failure Unit}
    (hk : max supply.next G.nonterminals.length = k)
    (introduced : answer (NameSupply.introduce G ⟨k⟩ (G.freshBodies k)) = (rest, outcome)) :
    answer (G.binarizeWith supply) = (rest, outcome.map fun _ => G.binaryForm k) := by
  obtain ⟨rfl, rfl⟩ := Prod.mk.inj introduced
  have state : (G.binarizeWith supply).1
      = (NameSupply.introduce G ⟨k⟩ (G.freshBodies k)).1 := by
    subst hk
    rw [binarizeWith_eq]
    rfl
  exact Prod.ext state (outcome_binarizeWith hk)

variable {f i : Nat} {result : NameSupply × Report Grammar}

/-- Of a binarization that fails only the reason has to be shown. -/
theorem BinarizesFrom.of_error {failure : Failure} (error : result.2.outcome = .error failure)
    (missing : ¬ (f = 0 ∨ k + f ≤ 2 ^ 64 - 1 ∧ ∀ m, k ≤ m → m < k + f → ¬ G.IsTaken m))
    (nameTaken : ∀ m, IsLeast {m | k ≤ m ∧ m < k + f ∧ G.IsTaken m} m → m ≤ 2 ^ 64 - 2 →
      result.2.outcome = .error (.nameTaken (.numbered m)) ∧ result.1 = ⟨m + 1⟩)
    (namesExhausted :
      (¬ ∃ m, IsLeast {m | k ≤ m ∧ m < k + f ∧ G.IsTaken m} m ∧ m ≤ 2 ^ 64 - 2) →
        result.2.outcome = .error .namesExhausted ∧ result.1 = ⟨2 ^ 64 - 1⟩) :
    G.BinarizesFrom k f result := by
  have failed : ¬ ∃ H, result.2.outcome = .ok H := by
    rintro ⟨H, ok⟩
    rw [error] at ok
    cases ok
  exact ⟨iff_of_false failed missing, fun H ok => absurd ⟨H, ok⟩ failed,
    fun H ok => absurd ⟨H, ok⟩ failed, fun _ => nameTaken, fun _ => namesExhausted⟩

/-- The numbers have run out: the number that is left is the last one. -/
theorem BinarizesFrom.of_namesExhausted
    (answered : answer result = (⟨k + i⟩, .error .namesExhausted))
    (hi : i < f) (start : k < 2 ^ 64) (last : NameSupply.limit ≤ k + i + 1)
    (before : ∀ j < i, G.IsUsable (k + j)) : G.BinarizesFrom k f result := by
  obtain ⟨supply, outcome⟩ := Prod.mk.inj answered
  have limit : NameSupply.limit = 2 ^ 64 := rfl
  -- it is the first one, or the one before it was handed out
  have here : k + i = 2 ^ 64 - 1 := by
    cases i with
    | zero => omega
    | succ i =>
      have := (before i (Nat.lt_succ_self i)).fits
      omega
  refine .of_error outcome (fun enough => ?_) (fun m least small => ?_) fun _ => ?_
  · -- the names that are needed go up to the last number at least
    omega
  · -- a name that is taken would have been met before
    obtain ⟨⟨low, _, taken⟩, _⟩ := least
    have usable := isUsable_of_lt before low (by omega)
    exact absurd taken usable.free
  · exact ⟨outcome, by rw [supply, here]⟩

/-- A name is taken: it is the first one that is. -/
theorem BinarizesFrom.of_nameTaken
    (answered : answer result = (⟨k + i + 1⟩, .error (.nameTaken (.numbered (k + i)))))
    (hi : i < f) (fits : k + i + 1 < NameSupply.limit) (taken : G.IsTaken (k + i))
    (before : ∀ j < i, G.IsUsable (k + j)) : G.BinarizesFrom k f result := by
  obtain ⟨supply, outcome⟩ := Prod.mk.inj answered
  have limit : NameSupply.limit = 2 ^ 64 := rfl
  have first : IsLeast {m | k ≤ m ∧ m < k + f ∧ G.IsTaken m} (k + i) := by
    refine ⟨⟨by omega, by omega, taken⟩, ?_⟩
    rintro m ⟨low, _, earlierTaken⟩
    by_contra earlier
    have usable := isUsable_of_lt before low (by omega)
    exact usable.free earlierTaken
  refine .of_error outcome (fun enough => ?_) (fun m least _ => ?_) fun none => ?_
  · rcases enough with zero | ⟨_, free⟩
    · omega
    · exact free (k + i) (by omega) (by omega) taken
  · obtain rfl : m = k + i := least.unique first
    exact ⟨outcome, supply⟩
  · -- there is such a name, so nothing is claimed of this case
    exact absurd ⟨k + i, first, by omega⟩ none

/-- All names are to be had. -/
theorem WellFormed.binarizesFrom_of_usable (wf : G.WellFormed)
    (answered : answer result = (⟨k + G.freshCount⟩, .ok (G.binaryForm k)))
    (usable : ∀ i < G.freshCount, G.IsUsable (k + i)) :
    G.BinarizesFrom k G.freshCount result := by
  obtain ⟨supply, outcome⟩ := Prod.mk.inj answered
  have limit : NameSupply.limit = 2 ^ 64 := rfl
  have room : G.HasRoom k := by
    rintro A ⟨i, hi, rfl⟩
    rw [wf.length_blocks] at hi
    exact not_or.mp (usable i hi).free
  have succeeded : ∃ H, result.2.outcome = .ok H := ⟨_, outcome⟩
  refine ⟨iff_of_true succeeded ?_, fun H ok => ?_, fun H ok => ?_,
    fun failed => absurd succeeded failed, fun failed => absurd succeeded failed⟩
  · by_cases none : G.freshCount = 0
    · exact .inl none
    · -- the last of the names has a number after it
      have last := (usable (G.freshCount - 1) (by omega)).fits
      refine .inr ⟨by omega, fun m low high => ?_⟩
      exact (isUsable_of_lt usable low high).free
  · cases outcome.symm.trans ok
    rw [← wf.length_blocks] at supply ⊢
    exact ⟨nonterminals_binaryForm, productionCount_binaryForm wf room, supply⟩
  · cases outcome.symm.trans ok
    exact ⟨fun rule mem => nodup_isolatedRules wf room mem,
      (WellFormed.binaryForm wf room).bodies_nodup⟩

/-- **What comes of a binarization**, whatever the grammar and whatever the supply. -/
theorem WellFormed.binarizesFrom_binarizeWith (wf : G.WellFormed) (supply : NameSupply)
    (few : G.nonterminals.length < 2 ^ 64) (wide : supply.next < 2 ^ 64) :
    G.BinarizesFrom (max supply.next G.nonterminals.length) G.freshCount
      (G.binarizeWith supply) := by
  generalize hk : max supply.next G.nonterminals.length = k
  have start : k < 2 ^ 64 := hk ▸ Nat.max_lt.mpr ⟨wide, few⟩
  have count : (G.freshBodies k).length = G.freshCount := by
    rw [length_freshBodies, wf.length_blocks]
  rcases G.isUsable_or_exists_obstacle k G.freshCount with usable | ⟨i, hi, stuck, before⟩
  · have introduced := NameSupply.introduce_of_usable (count.symm ▸ usable)
    rw [count] at introduced
    exact wf.binarizesFrom_of_usable (answer_binarizeWith hk introduced) usable
  · -- the first number that cannot be used decides
    rcases NameSupply.introduce_of_obstacle (count.symm ▸ hi) stuck before with
      ⟨last, introduced⟩ | ⟨fits, taken, introduced⟩
    · exact .of_namesExhausted (answer_binarizeWith hk introduced) hi start last before
    · exact .of_nameTaken (answer_binarizeWith hk introduced) hi fits taken before

/-- The grammar of brackets needs four names: one for each bracket, and one for each of the blocks
`( S` and `( S )`. A supply with two numbers left runs out of them. -/
theorem brackets_binarizesFrom :
    brackets.WellFormed ∧ brackets.nonterminals.length < 2 ^ 64 ∧
      (⟨2 ^ 64 - 3⟩ : NameSupply).next < 2 ^ 64 ∧
      brackets.BinarizesFrom (2 ^ 64 - 3) 4 (brackets.binarizeWith ⟨2 ^ 64 - 3⟩) ∧
      (brackets.binarizeWith ⟨2 ^ 64 - 3⟩).2.outcome = .error .namesExhausted ∧
      (brackets.binarizeWith ⟨2 ^ 64 - 3⟩).1 = ⟨2 ^ 64 - 1⟩ := by
  have few : brackets.nonterminals.length < 2 ^ 64 := by decide
  have wide : (⟨2 ^ 64 - 3⟩ : NameSupply).next < 2 ^ 64 := by decide
  have answers := brackets_wellFormed.binarizesFrom_binarizeWith ⟨2 ^ 64 - 3⟩ few wide
  have first : max (⟨2 ^ 64 - 3⟩ : NameSupply).next brackets.nonterminals.length = 2 ^ 64 - 3 := by
    decide
  have count : brackets.freshCount = 4 := by decide +kernel
  rw [first, count] at answers
  exact ⟨brackets_wellFormed, few, wide, answers, by decide +kernel, by decide +kernel⟩

end Grammar

end ContextFree
