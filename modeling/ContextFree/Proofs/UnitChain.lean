import ContextFree.Proofs.Interpretation
import ContextFree.Proofs.Rest
import ContextFree.Proofs.WellFormed
import ContextFree.UnitChain
import Mathlib.Logic.Relation

/-!
# Removal of unit productions

Chains are relaxed in place, so that a round makes use of what it has extended before. All that is
known of a round is that afterwards the chain of `A` has the members which the members of the chain
of `A` had before the round (`Chain.mem_foldl_relax`). That is enough: after `n` rounds a
chain has everything that is at most `n + 1` unit productions away from its source
(`Grammar.ChainsUpTo`), and nothing is further away than there are non-terminals. A count of the
members that are added would not do, since all chains together can have as many members as there
are pairs of non-terminals.

Chains that are complete are left alone by a further round, so the relaxation comes to rest in time
(`Grammar.WellFormed.outcome_unitChains`), with exactly the non-terminals that are reached by unit
productions (`Grammar.WellFormed.mem_chain_iff`). In other words, the chains are the reflexive and
transitive closure of single unit productions (`Grammar.WellFormed.exists_unitChains`). Giving every
non-terminal the proper bodies of its chain then changes no word of any non-terminal
(`Grammar.WellFormed.generates_withoutUnits_iff`).
-/

namespace ContextFree

namespace Chain

variable {chains : List Chain} {A B C : Name}

/-! ### One chain and one round -/

theorem membersOf_eq_getD (chains : List Chain) (A : Name) :
    membersOf chains A = ((chains.find? (·.source = A)).map (·.members)).getD [] := by
  unfold membersOf
  cases chains.find? (·.source = A) <;> rfl

/-- Where no source has two chains, the members of a source are those of its chain. -/
theorem membersOf_source (distinct : (chains.map (·.source)).Nodup) {chain : Chain}
    (mem : chain ∈ chains) : membersOf chains chain.source = chain.members := by
  rw [membersOf, find?_key_eq distinct mem]

theorem membersOf_of_not_source (h : A ∉ chains.map (·.source)) : membersOf chains A = [] := by
  rw [membersOf, find?_key_eq_none h]

/-- The members of the chain of `A`, and then the members of their chains. -/
def extended (chains : List Chain) (A : Name) : List Name :=
  (membersOf chains A ++ (membersOf chains A).flatMap (membersOf chains)).eraseDups

theorem mem_extended_iff :
    C ∈ extended chains A ↔
      C ∈ membersOf chains A ∨ ∃ B ∈ membersOf chains A, C ∈ membersOf chains B := by
  rw [extended, List.mem_eraseDups, List.mem_append, List.mem_flatMap]

theorem sources_relax : (relax chains A).map (·.source) = chains.map (·.source) := by
  rw [relax, List.map_map]
  refine List.map_congr_left fun chain _ => ?_
  rw [Function.comp_apply]
  split <;> rfl

theorem membersOf_relax :
    membersOf (relax chains A) B = if B = A then extended chains A else membersOf chains B := by
  -- relaxing keeps the sources, so the same chain is found before and after
  have source : ∀ chain : Chain,
      decide ((if chain.source = A then chain.extend chains else chain).source = B)
        = decide (chain.source = B) := by
    intro chain
    split <;> rfl
  rw [membersOf_eq_getD (relax chains A), relax, List.find?_map]
  simp only [Function.comp_def, source]
  unfold extended
  rw [membersOf_eq_getD chains A, membersOf_eq_getD chains B]
  by_cases hB : B = A
  · -- the chain of `A` itself is extended
    subst hB
    rw [if_pos rfl]
    cases found : chains.find? (·.source = B) with
    | none => rfl
    | some chain =>
      have eq : chain.source = B := by simpa using List.find?_some found
      simp only [Option.map_some, Option.getD_some, if_pos eq]
      rfl
  · -- any other chain stays as it is
    rw [if_neg hB]
    cases found : chains.find? (·.source = B) with
    | none => rfl
    | some chain =>
      have eq : chain.source = B := by simpa using List.find?_some found
      have ne : chain.source ≠ A := fun h => hB (eq.symm.trans h)
      simp only [Option.map_some, Option.getD_some, if_neg ne]

/-- What joins a chain joins it at the end. -/
theorem head?_membersOf_relax (h : (membersOf chains B).head? = some B) :
    (membersOf (relax chains A) B).head? = some B := by
  rw [membersOf_relax]
  split
  · next eq =>
    -- the chain of `B` itself is extended, and it is not empty
    subst eq
    rw [extended, head?_eraseDups, List.head?_append, h]
    rfl
  · exact h

theorem membersOf_subset_relax (h : C ∈ membersOf chains B) :
    C ∈ membersOf (relax chains A) B := by
  rw [membersOf_relax]
  split
  · next eq => exact mem_extended_iff.mpr (.inl (eq ▸ h))
  · exact h

theorem membersOf_subset_foldl_relax (names : List Name) (h : C ∈ membersOf chains B) :
    C ∈ membersOf (names.foldl relax chains) B := by
  induction names generalizing chains with
  | nil => exact h
  | cons A names ih => exact ih (membersOf_subset_relax h)

/-- **What a round does at least**: the members of its members' chains join a chain. -/
theorem mem_foldl_relax {names : List Name} (mem : A ∈ names) (hB : B ∈ membersOf chains A)
    (hC : C ∈ membersOf chains B) : C ∈ membersOf (names.foldl relax chains) A := by
  induction names generalizing chains with
  | nil => cases mem
  | cons first names ih =>
    rw [List.foldl_cons]
    rcases List.mem_cons.mp mem with rfl | mem
    · -- it is the turn of `A`, and what joins its chain stays there
      refine membersOf_subset_foldl_relax names ?_
      rw [membersOf_relax, if_pos rfl]
      exact mem_extended_iff.mpr (.inr ⟨B, hB, hC⟩)
    · -- the turn of `A` is still to come, and members only join until then
      exact ih mem (membersOf_subset_relax hB) (membersOf_subset_relax hC)

/-- A property of chains is kept by a round if it is kept whenever one chain is extended. -/
theorem relaxAll_induction {P : List Chain → Prop}
    (step : ∀ chains A, P chains → P (relax chains A)) (h : P chains) : P (relaxAll chains) := by
  have keeps : ∀ (names : List Name) (chains : List Chain), P chains →
      P (names.foldl relax chains) := by
    intro names
    induction names with
    | nil => exact fun _ h => h
    | cons A names ih => exact fun chains h => ih _ (step chains A h)
  exact keeps _ chains h

theorem sources_relaxAll : (relaxAll chains).map (·.source) = chains.map (·.source) :=
  relaxAll_induction (P := fun later => later.map (·.source) = chains.map (·.source))
    (fun _ _ same => sources_relax.trans same) rfl

/-- **Complete chains are left alone.** -/
theorem relaxAll_of_closed (distinct : (chains.map (·.source)).Nodup)
    (nodup : ∀ A, (membersOf chains A).Nodup)
    (closed : ∀ A, ∀ B ∈ membersOf chains A, ∀ C ∈ membersOf chains B, C ∈ membersOf chains A) :
    relaxAll chains = chains := by
  have relax_eq : ∀ A, relax chains A = chains := by
    intro A
    unfold relax
    conv => rhs; rw [← List.map_id chains]
    refine List.map_congr_left fun chain mem => ?_
    split
    · -- what would join the chain is in it already
      have own := membersOf_source distinct mem
      have same : (chain.members ++ chain.members.flatMap (membersOf chains)).eraseDups
          = chain.members := by
        rw [← own]
        refine eraseDups_append_of_subset (nodup _) fun C hC => ?_
        obtain ⟨B, hB, hC⟩ := List.mem_flatMap.mp hC
        exact closed _ B hB C hC
      rw [extend, same]
      rfl
    · rfl
  refine relaxAll_induction (P := (· = chains)) ?_ rfl
  rintro _ A rfl
  exact relax_eq A

end Chain

namespace Grammar

open Chain (membersOf relax relaxAll)

variable {G : Grammar} {A B C : Name}

/-! ### Reaching by unit productions -/

theorem UnitReaches.trans (hB : G.UnitReaches A B) (hC : G.UnitReaches B C) :
    G.UnitReaches A C := by
  induction hC with
  | refl => exact hB
  | step _ mem ih => exact ih.step mem

/-- The non-terminals one unit production away. -/
def unitTargets (G : Grammar) (A : Name) : List Name := (G.bodies A).filterMap Body.unitTarget?

theorem mem_unitTargets_iff : B ∈ G.unitTargets A ↔ [.nonterminal B] ∈ G.bodies A := by
  rw [unitTargets, List.mem_filterMap]
  refine ⟨?_, fun h => ⟨_, h, rfl⟩⟩
  rintro ⟨body, mem, target⟩
  rw [← Body.unitTarget?_eq_some_iff.mp target]
  exact mem

theorem unitReaches_iff : G.UnitReaches A B ↔ ∃ n, Reaches G.unitTargets A n B := by
  refine ⟨fun h => ?_, ?_⟩
  · induction h with
    | refl => exact ⟨0, .refl⟩
    | step _ mem ih =>
      obtain ⟨n, hn⟩ := ih
      exact ⟨n + 1, hn.step (mem_unitTargets_iff.mpr mem)⟩
  · rintro ⟨n, h⟩
    induction h with
    | refl => exact .refl
    | step _ mem ih => exact ih.step (mem_unitTargets_iff.mp mem)

/-- One unit production leads from the one non-terminal to the other. -/
def UnitStep (G : Grammar) (A B : Name) : Prop := [.nonterminal B] ∈ G.bodies A

theorem unitReaches_iff_reflTransGen :
    G.UnitReaches A B ↔ Relation.ReflTransGen G.UnitStep A B := by
  refine ⟨fun h => ?_, fun h => ?_⟩
  · induction h with
    | refl => exact .refl
    | step _ mem ih => exact ih.tail mem
  · induction h with
    | refl => exact .refl
    | tail _ mem ih => exact ih.step mem

theorem WellFormed.unitTargets_subset (wf : G.WellFormed) :
    ∀ B ∈ G.nonterminals, ∀ C ∈ G.unitTargets B, C ∈ G.nonterminals := fun _ _ _ hC =>
  wf.declares_of_mem_bodies (mem_unitTargets_iff.mp hC) List.mem_cons_self

/-! ### What rounds lead to -/

/-- Chains of all non-terminals that are right as far as they go, and that go at least `d` unit
productions far. -/
structure ChainsUpTo (G : Grammar) (d : Nat) (chains : List Chain) : Prop where
  sources_eq : chains.map (·.source) = G.nonterminals
  nodup : ∀ A, (membersOf chains A).Nodup
  /-- Members are reached by unit productions. -/
  sound : ∀ A, ∀ B ∈ membersOf chains A, G.UnitReaches A B
  /-- What is at most `d` unit productions away is a member. -/
  covers : ∀ A ∈ G.nonterminals, ∀ n ≤ d, ∀ B, Reaches G.unitTargets A n B →
    B ∈ membersOf chains A

theorem membersOf_unitSteps (mem : A ∈ G.leftSides) :
    membersOf G.unitSteps A = (A :: G.unitTargets A).eraseDups := by
  obtain ⟨rule, found⟩ : ∃ rule, G.rules.find? (·.lhs = A) = some rule := by
    obtain ⟨rule, hrule, rfl⟩ := List.mem_map.mp mem
    rw [← Option.isSome_iff_exists, List.find?_isSome]
    exact ⟨rule, hrule, decide_eq_true rfl⟩
  have lhs : rule.lhs = A := by simpa using List.find?_some found
  rw [Chain.membersOf_eq_getD, unitSteps, List.find?_map]
  simp only [Function.comp_def, found, Option.map_some, Option.getD_some]
  rw [unitTargets, bodies_eq_getD, found, lhs]
  rfl

theorem sources_unitSteps : G.unitSteps.map (·.source) = G.leftSides := by
  rw [unitSteps, List.map_map]
  rfl

/-- In the beginning chains go one unit production far. -/
theorem WellFormed.chainsUpTo_unitSteps (wf : G.WellFormed) : G.ChainsUpTo 1 G.unitSteps where
  sources_eq := sources_unitSteps.trans wf.leftSides_eq
  nodup A := by
    by_cases mem : A ∈ G.leftSides
    · rw [membersOf_unitSteps mem]
      exact nodup_eraseDups _
    · rw [Chain.membersOf_of_not_source (sources_unitSteps ▸ mem)]
      exact List.nodup_nil
  sound A B hB := by
    by_cases mem : A ∈ G.leftSides
    · -- the source itself, or one unit production away from it
      rw [membersOf_unitSteps mem, List.mem_eraseDups] at hB
      rcases List.mem_cons.mp hB with rfl | hB
      · exact .refl
      · exact UnitReaches.refl.step (mem_unitTargets_iff.mp hB)
    · rw [Chain.membersOf_of_not_source (sources_unitSteps ▸ mem)] at hB
      cases hB
  covers A mem n hn B reaches := by
    rw [← wf.leftSides_eq] at mem
    rw [membersOf_unitSteps mem, List.mem_eraseDups]
    cases reaches with
    | refl => exact List.mem_cons_self
    | step before hB =>
      -- one step at most, so there is none before the last one
      cases before with
      | refl => exact List.mem_cons_of_mem A hB
      | step _ _ => omega

/-- **Each round goes one unit production further.** -/
theorem WellFormed.chainsUpTo_relaxAll (wf : G.WellFormed) {d : Nat} {chains : List Chain}
    (h : G.ChainsUpTo (d + 1) chains) : G.ChainsUpTo (d + 2) (relaxAll chains) where
  sources_eq := Chain.sources_relaxAll.trans h.sources_eq
  nodup := by
    refine Chain.relaxAll_induction (P := fun chains => ∀ A, (membersOf chains A).Nodup) ?_ h.nodup
    intro chains A nodup B
    rw [Chain.membersOf_relax]
    split
    · exact nodup_eraseDups _
    · exact nodup B
  sound := by
    refine Chain.relaxAll_induction
      (P := fun chains => ∀ A, ∀ B ∈ membersOf chains A, G.UnitReaches A B) ?_ h.sound
    intro chains A sound B C hC
    rw [Chain.membersOf_relax] at hC
    split at hC
    · next eq =>
      subst eq
      rcases Chain.mem_extended_iff.mp hC with hC | ⟨D, hD, hC⟩
      · exact sound B C hC
      · -- one way after the other
        exact (sound B D hD).trans (sound D C hC)
    · exact sound B C hC
  covers A mem n hn C reaches := by
    cases reaches with
    | refl =>
      have own := h.covers A mem 0 (Nat.zero_le _) A .refl
      exact Chain.membersOf_subset_foldl_relax _ own
    | step before hC =>
      rename_i m B
      -- the way to the last step is known to the chain, and so is the last step
      have hB : B ∈ membersOf chains A := h.covers A mem m (by omega) B before
      have declared : B ∈ G.nonterminals := by
        obtain ⟨body, hbody⟩ : ∃ body, body ∈ G.bodies B := ⟨_, mem_unitTargets_iff.mp hC⟩
        exact wf.mem_of_mem_bodies hbody
      have last : C ∈ membersOf chains B :=
        h.covers B declared 1 (by omega) C (Reaches.refl.step hC)
      have source : A ∈ chains.map (·.source) := by
        rw [h.sources_eq]
        exact mem
      exact Chain.mem_foldl_relax source hB last

/-- The chains after as many rounds as there are non-terminals. -/
def chains (G : Grammar) : List Chain := (settle relaxAll G.nonterminals.length G.unitSteps).2

theorem WellFormed.chainsUpTo_chains (wf : G.WellFormed) :
    G.ChainsUpTo (G.nonterminals.length + 1) G.chains := by
  have rounds : ∀ n, G.ChainsUpTo (n + 1) (Nat.repeat relaxAll n G.unitSteps) := by
    intro n
    induction n with
    | zero => exact wf.chainsUpTo_unitSteps
    | succ n ih => exact wf.chainsUpTo_relaxAll ih
  rw [chains, settle_snd]
  exact rounds _

/-- **The chain of a non-terminal is what it reaches by unit productions.** -/
theorem WellFormed.mem_chain_iff (wf : G.WellFormed) (mem : A ∈ G.nonterminals) :
    B ∈ membersOf G.chains A ↔ G.UnitReaches A B := by
  refine ⟨wf.chainsUpTo_chains.sound A B, fun h => ?_⟩
  obtain ⟨n, reaches⟩ := unitReaches_iff.mp h
  obtain ⟨m, hm, reaches⟩ := reaches.exists_le wf.unitTargets_subset mem
  exact wf.chainsUpTo_chains.covers A mem m (by omega) B reaches

theorem WellFormed.relaxAll_chains (wf : G.WellFormed) : relaxAll G.chains = G.chains := by
  refine Chain.relaxAll_of_closed ?_ wf.chainsUpTo_chains.nodup ?_
  · rw [wf.chainsUpTo_chains.sources_eq]
    exact wf.nonterminals_nodup
  · -- a chain has all that its source reaches, so reaching is transitive on chains
    intro A B hB C hC
    by_cases mem : A ∈ G.nonterminals
    · have hB' := wf.chainsUpTo_chains.sound A B hB
      exact (wf.mem_chain_iff mem).mpr (hB'.trans (wf.chainsUpTo_chains.sound B C hC))
    · rw [Chain.membersOf_of_not_source (wf.chainsUpTo_chains.sources_eq ▸ mem)] at hB
      cases hB

/-- **Relaxation comes to rest in time.** -/
theorem WellFormed.outcome_unitChains (wf : G.WellFormed) :
    G.unitChains.outcome = .ok G.chains := by
  unfold unitChains
  rw [saturate_of_rest wf.relaxAll_chains]
  rfl

/-! ### The grammar without unit productions -/

theorem WellFormed.outcome_removeUnits (wf : G.WellFormed) :
    G.removeUnits.outcome = .ok (G.withoutUnits G.chains) := by
  unfold removeUnits
  rw [Report.outcome_bind, wf.outcome_unitChains]
  rfl

theorem mem_properBodies_iff {members : List Name} {body : Body} :
    body ∈ G.properBodies members ↔
      body.unitTarget? = none ∧ ∃ B ∈ members, body ∈ G.bodies B := by
  rw [properBodies, List.mem_eraseDups, List.mem_filter, List.mem_flatMap]
  rw [Option.isNone_iff_eq_none]
  exact and_comm

theorem bodies_withoutUnits (chains : List Chain) (A : Name) :
    (G.withoutUnits chains).bodies A = G.properBodies (membersOf chains A) := by
  rw [bodies_eq_getD, Chain.membersOf_eq_getD, withoutUnits, List.find?_map]
  simp only [Function.comp_def]
  cases chains.find? (·.source = A) <;> rfl

/-- **Without its unit productions a grammar generates the same words.** -/
theorem WellFormed.generates_withoutUnits_iff (wf : G.WellFormed) {w : List Name} :
    (G.withoutUnits G.chains).Generates A w ↔ G.Generates A w := by
  refine ⟨fun h => ?_, fun h => ?_⟩
  · -- a body of a member is reached from the source by unit productions
    have along : ∀ {A B : Name} {u : List Name}, G.UnitReaches A B → G.Generates B u →
        G.Generates A u := by
      intro A B u reaches
      induction reaches with
      | refl => exact id
      | step _ mem ih => exact fun hu => ih ⟨_, mem, derives_single_iff.mpr hu⟩
    have closed : (G.withoutUnits G.chains).IsClosed G.Generates := by
      intro B body mem u reads
      rw [bodies_withoutUnits, mem_properBodies_iff] at mem
      obtain ⟨_, C, hC, mem⟩ := mem
      refine along (wf.chainsUpTo_chains.sound B C hC) ?_
      exact isClosed_generates G C body mem u reads
    exact closed.of_generates h
  · have closed : G.IsClosed (G.withoutUnits G.chains).Generates := by
      intro B body mem u reads
      have declared := wf.mem_of_mem_bodies mem
      cases target : body.unitTarget? with
      | none =>
        -- a proper body is one of the bodies of its own non-terminal
        refine ⟨body, ?_, derives_iff_reads.mpr reads⟩
        rw [bodies_withoutUnits, mem_properBodies_iff]
        exact ⟨target, B, (wf.mem_chain_iff declared).mpr .refl, mem⟩
      | some C =>
        -- the word is derived by a proper body in the chain of the target
        rw [Body.unitTarget?_eq_some_iff.mp target] at mem reads
        obtain ⟨proper, hproper, derives⟩ := derives_single_iff.mp (derives_iff_reads.mpr reads)
        refine ⟨proper, ?_, derives⟩
        rw [bodies_withoutUnits, mem_properBodies_iff] at hproper ⊢
        obtain ⟨none, D, hD, hproper⟩ := hproper
        refine ⟨none, D, (wf.mem_chain_iff declared).mpr ?_, hproper⟩
        exact (UnitReaches.refl.step mem).trans (wf.chainsUpTo_chains.sound C D hD)
    exact closed.of_generates h

theorem WellFormed.withoutUnits (wf : G.WellFormed) : (G.withoutUnits G.chains).WellFormed := by
  refine wf.withRules ?_ ?_ ?_
  · rw [← wf.chainsUpTo_chains.sources_eq, List.map_map]
    rfl
  · intro rule hrule body hbody s hs
    obtain ⟨chain, _, rfl⟩ := List.mem_map.mp hrule
    obtain ⟨_, B, _, mem⟩ := mem_properBodies_iff.mp hbody
    exact wf.declares_of_mem_bodies mem hs
  · intro rule hrule
    obtain ⟨chain, _, rfl⟩ := List.mem_map.mp hrule
    exact nodup_eraseDups _

/-! ### The order of the bodies -/

/-- **A chain begins with its source.** -/
theorem WellFormed.head?_chain (wf : G.WellFormed) (mem : A ∈ G.nonterminals) :
    (membersOf G.chains A).head? = some A := by
  have start : (membersOf G.unitSteps A).head? = some A := by
    rw [membersOf_unitSteps (wf.leftSides_eq ▸ mem), head?_eraseDups, List.head?_cons]
  have round : ∀ chains : List Chain, (membersOf chains A).head? = some A →
      (membersOf (relaxAll chains) A).head? = some A := by
    intro chains first
    exact Chain.relaxAll_induction (P := fun chains => (membersOf chains A).head? = some A)
      (fun _ _ => Chain.head?_membersOf_relax) first
  exact settle_induction (P := fun chains => (membersOf chains A).head? = some A) round _ start

/-- The proper bodies of several non-terminals begin with those of the first one. -/
theorem prefix_properBodies {members : List Name} (first : members.head? = some A)
    (distinct : (G.bodies A).Nodup) :
    (G.bodies A).filter (fun body => body.unitTarget?.isNone) <+: G.properBodies members := by
  obtain ⟨others, rfl⟩ := List.head?_eq_some_iff.mp first
  rw [properBodies, List.flatMap_cons, List.filter_append]
  -- the bodies of `A` are not listed twice, so erasing leaves them where they are
  obtain ⟨later, eq, _⟩ := @exists_eraseDups_append _ _ _ _
    ((others.flatMap G.bodies).filter fun body => body.unitTarget?.isNone) (distinct.filter _)
  rw [eq]
  exact List.prefix_append _ later

/-! ### The chains of a grammar -/

/-- **The chains are the reflexive and transitive closure** of the unit productions, around circles
as well. There is one chain for each declared non-terminal, in the order of declaration. It begins
with its source and lists nothing twice. -/
theorem WellFormed.exists_unitChains (wf : G.WellFormed) :
    ∃ chains, G.unitChains.outcome = .ok chains ∧
      chains.map (·.source) = G.nonterminals ∧ G.nonterminals.Nodup ∧
      ∀ chain ∈ chains, chain.members.head? = some chain.source ∧ chain.members.Nodup ∧
        (∀ B ∈ chain.members, B ∈ G.nonterminals) ∧
        ∀ B, B ∈ chain.members ↔ Relation.ReflTransGen G.UnitStep chain.source B := by
  have sources := wf.chainsUpTo_chains.sources_eq
  refine ⟨G.chains, wf.outcome_unitChains, sources, wf.nonterminals_nodup, fun chain hchain => ?_⟩
  -- no source has two chains, so the chain is what is found when its source is looked up
  have own : membersOf G.chains chain.source = chain.members :=
    Chain.membersOf_source (sources ▸ wf.nonterminals_nodup) hchain
  have mem : chain.source ∈ G.nonterminals := sources ▸ List.mem_map_of_mem hchain
  have reached : ∀ B, B ∈ chain.members ↔ G.UnitReaches chain.source B := by
    intro B
    rw [← own]
    exact wf.mem_chain_iff mem
  refine ⟨own ▸ wf.head?_chain mem, own ▸ wf.chainsUpTo_chains.nodup _, fun B hB => ?_, fun B => ?_⟩
  · obtain ⟨n, reaches⟩ := unitReaches_iff.mp ((reached B).mp hB)
    exact reaches.mem wf.unitTargets_subset mem
  · rw [reached, unitReaches_iff_reflTransGen]

/-- The grammar `S → A | a`, `A → B | A`, `B → b | A`, `C → C | S`. -/
def roundabout : Grammar where
  start := .ofCons 'S' []
  nonterminals := [.ofCons 'S' [], .ofCons 'A' [], .ofCons 'B' [], .ofCons 'C' []]
  terminals := [.ofCons 'a' [], .ofCons 'b' []]
  rules := [
    ⟨.ofCons 'S' [], [[.nonterminal (.ofCons 'A' [])], [.terminal (.ofCons 'a' [])]]⟩,
    ⟨.ofCons 'A' [], [[.nonterminal (.ofCons 'B' [])], [.nonterminal (.ofCons 'A' [])]]⟩,
    ⟨.ofCons 'B' [], [[.terminal (.ofCons 'b' [])], [.nonterminal (.ofCons 'A' [])]]⟩,
    ⟨.ofCons 'C' [], [[.nonterminal (.ofCons 'C' [])], [.nonterminal (.ofCons 'S' [])]]⟩]

/-- There is a circle of `A` and `B`, to which `S` and `C` lead but not back. -/
theorem roundabout_unitChains :
    roundabout.WellFormed ∧ ∃ chains, roundabout.unitChains.outcome = .ok chains ∧
      chains = [
        ⟨.ofCons 'S' [], [.ofCons 'S' [], .ofCons 'A' [], .ofCons 'B' []]⟩,
        ⟨.ofCons 'A' [], [.ofCons 'A' [], .ofCons 'B' []]⟩,
        ⟨.ofCons 'B' [], [.ofCons 'B' [], .ofCons 'A' []]⟩,
        ⟨.ofCons 'C' [], [.ofCons 'C' [], .ofCons 'S' [], .ofCons 'A' [], .ofCons 'B' []]⟩] ∧
      ∀ chain ∈ chains, ∀ B, B ∈ chain.members ↔
        Relation.ReflTransGen roundabout.UnitStep chain.source B := by
  have wf : roundabout.WellFormed := wellFormed_iff_ofRows?_eq_ok.mpr (by decide +kernel)
  obtain ⟨chains, ok, _, _, closure⟩ := wf.exists_unitChains
  refine ⟨wf, chains, ok, ?_, fun chain mem => (closure chain mem).2.2.2⟩
  have same : roundabout.chains = chains := Except.ok.inj (wf.outcome_unitChains.symm.trans ok)
  rw [← same]
  decide +kernel

/-! ### Removal of unit productions -/

theorem isNone_unitTarget?_iff {body : Body} :
    body.unitTarget?.isNone ↔ ∀ B, body ≠ [.nonterminal B] := by
  rw [Option.isNone_iff_eq_none, Option.eq_none_iff_forall_ne_some]
  exact forall_congr' fun B => not_congr Body.unitTarget?_eq_some_iff

/-- The unit productions of a grammar give way to the bodies that they lead to. -/
structure ReplacesUnits (G H : Grammar) : Prop where
  /-- No body is a single non-terminal. -/
  unit_notMem : ∀ rule ∈ H.rules, ∀ B, [.nonterminal B] ∉ rule.bodies
  /-- Every non-terminal generates what it generated, the empty word included. -/
  generates_iff : ∀ A w, H.Generates A w ↔ G.Generates A w
  /-- The bodies of a non-terminal are the proper bodies of all that it reaches by unit
  productions, each of them once. -/
  mem_bodies_iff : ∀ A ∈ G.nonterminals, (H.bodies A).Nodup ∧ ∀ body, body ∈ H.bodies A ↔
    (∀ C, body ≠ [.nonterminal C]) ∧ ∃ B, G.UnitReaches A B ∧ body ∈ G.bodies B
  /-- Its own proper bodies come first, and in their old order. -/
  own_first : ∀ A ∈ G.nonterminals,
    (G.bodies A).filter (fun body => body.unitTarget?.isNone) <+: H.bodies A

/-- **Unit productions can always be removed**, also where they lead around in a circle. -/
theorem WellFormed.exists_removeUnits (wf : G.WellFormed) :
    ∃ H, G.removeUnits.outcome = .ok H ∧ G.ReplacesUnits H := by
  refine ⟨G.withoutUnits G.chains, wf.outcome_removeUnits, ?_, ?_, ?_, ?_⟩
  · intro rule hrule B mem
    obtain ⟨chain, _, rfl⟩ := List.mem_map.mp hrule
    exact Option.some_ne_none B (mem_properBodies_iff.mp mem).1
  · intro A w
    exact wf.generates_withoutUnits_iff
  · intro A mem
    rw [bodies_withoutUnits]
    refine ⟨nodup_eraseDups _, fun body => ?_⟩
    rw [mem_properBodies_iff, ← Option.isNone_iff_eq_none, isNone_unitTarget?_iff]
    -- the members of the chain are what is reached
    refine and_congr_right fun _ => exists_congr fun B => and_congr_left fun _ => ?_
    exact wf.mem_chain_iff mem
  · intro A mem
    rw [bodies_withoutUnits]
    exact prefix_properBodies (wf.head?_chain mem) (wf.bodies_nodup_bodies A)

/-- Each non-terminal of `loops` gets the proper bodies of the other one, after its own. -/
theorem loops_removeUnits :
    loops.WellFormed ∧ ∃ H, loops.removeUnits.outcome = .ok H ∧ loops.ReplacesUnits H ∧
      H.bodies (.ofCons 'S' []) =
        [[.nonterminal (.ofCons 'A' []), .nonterminal (.ofCons 'A' [])],
          [.terminal (.ofCons 'b' [])], []] ∧
      H.bodies (.ofCons 'A' []) =
        [[], [.nonterminal (.ofCons 'A' []), .nonterminal (.ofCons 'A' [])],
          [.terminal (.ofCons 'b' [])]] := by
  obtain ⟨H, ok, replaces⟩ := loops_wellFormed.exists_removeUnits
  have same : loops.withoutUnits loops.chains = H :=
    Except.ok.inj (loops_wellFormed.outcome_removeUnits.symm.trans ok)
  refine ⟨loops_wellFormed, H, ok, replaces, ?_, ?_⟩
  · rw [← same]
    decide +kernel
  · rw [← same]
    decide +kernel

end Grammar

end ContextFree
