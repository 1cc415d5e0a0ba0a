import ContextFree.Proofs.NormalForm

/-!
# Stages that change nothing

Each stage looks for something and leaves a grammar exactly as it is, the order of everything
included, if there is nothing of the kind:

* no empty body (`Grammar.WellFormed.withoutEmpty_eq_self`);
* no unit production (`Grammar.WellFormed.withoutUnits_eq_self`);
* no non-terminal that is not accessible (`Grammar.WellFormed.restrict_accessible_eq_self`);
* no non-terminal and no body that is not productive
  (`Grammar.WellFormed.productivePart_eq_self`);
* no body of two or more symbols but pairs of non-terminals
  (`Grammar.IsBinary.binarizeWith_eq`).

A well-formed grammar is given by its alphabets and its bodies, so for each stage this is a
statement about the bodies of one non-terminal.
-/

namespace ContextFree

namespace Grammar

variable {G : Grammar} {A : Name}

/-! ### Empty bodies -/

/-- Where nothing is nullable, bodies that are not empty have no variant but themselves. -/
theorem nonemptyVariants_nil {bodies : List Body} (distinct : bodies.Nodup)
    (nonempty : [] ∉ bodies) : nonemptyVariants [] bodies = bodies := by
  have whole : bodies.filter (· ≠ []) = bodies := by
    refine List.filter_eq_self.mpr fun body mem => ?_
    have ne : body ≠ [] := fun eq => nonempty (eq ▸ mem)
    exact decide_eq_true ne
  have same : bodies.flatMap (Body.variants []) = bodies := by
    rw [show Body.variants [] = (fun body => [body]) from funext Body.variants_nil]
    exact List.flatMap_singleton' bodies
  rw [nonemptyVariants, whole, same, whole, eraseDups_of_nodup distinct]

/-- **Where no body is empty**, the elimination of empty bodies changes nothing. -/
theorem WellFormed.withoutEmpty_eq_self (wf : G.WellFormed) (nonempty : ∀ A, [] ∉ G.bodies A) :
    G.withoutEmpty G.nullables = G := by
  refine wf.withoutEmpty.eq_of_bodies wf rfl rfl rfl fun A _ => ?_
  rw [bodies_withoutEmpty, wf.nullables_eq_nil nonempty]
  exact nonemptyVariants_nil (wf.bodies_nodup_bodies A) (nonempty A)

/-! ### Unit productions -/

/-- Without unit productions a non-terminal reaches only itself by them. -/
theorem UnitReaches.eq_of_unit_notMem (units : ∀ A B, [.nonterminal B] ∉ G.bodies A) {B : Name}
    (reaches : G.UnitReaches A B) : B = A := by
  cases reaches with
  | refl => rfl
  | step _ mem => exact absurd mem (units _ _)

/-- Without unit productions the chain of a non-terminal is the non-terminal alone. -/
theorem WellFormed.membersOf_chains_eq_singleton (wf : G.WellFormed)
    (units : ∀ A B, [.nonterminal B] ∉ G.bodies A) (mem : A ∈ G.nonterminals) :
    Chain.membersOf G.chains A = [A] := by
  have first := wf.head?_chain mem
  obtain ⟨others, chain⟩ := List.head?_eq_some_iff.mp first
  -- nothing else is reached, and `A` itself is not listed twice
  have distinct := wf.chainsUpTo_chains.nodup A
  rw [chain, List.nodup_cons] at distinct
  have none : others = [] := by
    refine List.eq_nil_iff_forall_not_mem.mpr fun B hB => ?_
    have member : B ∈ Chain.membersOf G.chains A := by
      rw [chain]
      exact List.mem_cons_of_mem A hB
    have same : B = A := ((wf.mem_chain_iff mem).mp member).eq_of_unit_notMem units
    exact distinct.1 (same ▸ hB)
  rw [chain, none]

/-- **Where no body is a single non-terminal**, the removal of unit productions changes nothing. -/
theorem WellFormed.withoutUnits_eq_self (wf : G.WellFormed)
    (units : ∀ A B, [.nonterminal B] ∉ G.bodies A) : G.withoutUnits G.chains = G := by
  refine wf.withoutUnits.eq_of_bodies wf rfl rfl rfl fun A mem => ?_
  rw [bodies_withoutUnits, wf.membersOf_chains_eq_singleton units mem, properBodies,
    List.flatMap_singleton]
  have proper : (G.bodies A).filter (fun body => body.unitTarget?.isNone) = G.bodies A := by
    refine List.filter_eq_self.mpr fun body hbody => ?_
    refine isNone_unitTarget?_iff.mpr fun B eq => ?_
    exact units A B (eq ▸ hbody)
  rw [proper, eraseDups_of_nodup (wf.bodies_nodup_bodies A)]

/-! ### Useless non-terminals -/

/-- **Where every non-terminal is accessible**, pruning those that are not changes nothing. -/
theorem WellFormed.restrict_accessible_eq_self (wf : G.WellFormed)
    (accessible : ∀ A ∈ G.nonterminals, A ∈ G.accessible) :
    G.restrict G.accessible.contains = G := by
  refine wf.restrict_accessible.eq_of_bodies wf rfl ?_ rfl fun A mem => ?_
  · refine List.filter_eq_self.mpr fun A mem => ?_
    exact List.contains_iff_mem.mpr (accessible A mem)
  · rw [bodies_restrict, if_pos (List.contains_iff_mem.mpr (accessible A mem))]

/-- **Where every non-terminal is to be kept and every body is productive**, pruning what is not
productive changes nothing. -/
theorem WellFormed.productivePart_eq_self (wf : G.WellFormed)
    (outlasts : ∀ A ∈ G.nonterminals, G.outlasts A)
    (productive : ∀ A, ∀ body ∈ G.bodies A, body.isProductive G.productives) :
    G.productivePart = G := by
  refine wf.productivePart.eq_of_bodies wf rfl ?_ rfl fun A mem => ?_
  · exact List.filter_eq_self.mpr outlasts
  · rw [Grammar.productivePart, bodies_of_rules_map (f := List.filter _) rfl rfl A,
      bodies_restrict, if_pos (outlasts A mem)]
    exact List.filter_eq_self.mpr (productive A)

/-! ### Binary bodies -/

/-- Where long bodies are pairs of non-terminals, no terminal stands in a long body. -/
theorem IsBinary.crowdedTerminals_eq_nil (binary : G.IsBinary) (wf : G.WellFormed) :
    G.crowdedTerminals = [] := by
  refine List.eq_nil_iff_forall_not_mem.mpr fun a mem => ?_
  rw [crowdedTerminals, List.mem_eraseDups, List.mem_flatMap] at mem
  obtain ⟨rule, hrule, mem⟩ := mem
  obtain ⟨body, hbody, mem⟩ := List.mem_flatMap.mp mem
  obtain ⟨long, terminal⟩ := Body.mem_crowdedTerminals_iff.mp mem
  obtain ⟨B, C, rfl⟩ := binary rule.lhs body (wf.mem_bodies hrule hbody) long
  simp at terminal

/-- Where long bodies are pairs of non-terminals, no fresh name is needed. -/
theorem IsBinary.blocks_eq_nil (binary : G.IsBinary) (wf : G.WellFormed) : G.blocks = [] := by
  refine List.eq_nil_iff_forall_not_mem.mpr fun block mem => ?_
  rcases mem_blocks_iff.mp mem with ⟨a, mem, _⟩ | ⟨rule, hrule, body, hbody, mem⟩
  · rw [binary.crowdedTerminals_eq_nil wf] at mem
    cases mem
  · -- a block is shorter than its body and has two symbols at least, as many as the body
    obtain ⟨_, two, short⟩ := Body.mem_blocks_iff.mp mem
    obtain ⟨B, C, rfl⟩ := binary rule.lhs body (wf.mem_bodies hrule hbody) (by omega)
    have length : ([.nonterminal B, .nonterminal C] : Body).length = 2 := rfl
    omega

/-- Where long bodies are pairs of non-terminals, the binary form is the grammar itself. -/
theorem IsBinary.binaryForm_eq_self (binary : G.IsBinary) (wf : G.WellFormed) (k : Nat) :
    G.binaryForm k = G := by
  have none : G.blocks = [] := binary.blocks_eq_nil wf
  have old : ∀ A, ¬ G.IsFresh k A := by
    rintro A ⟨i, hi, _⟩
    rw [none] at hi
    cases hi
  have room : G.HasRoom k := fun A fresh => absurd fresh (old A)
  refine (WellFormed.binaryForm wf room).eq_of_bodies wf rfl ?_ rfl fun A _ => ?_
  · rw [nonterminals_binaryForm, none]
    exact List.append_nil _
  · -- nothing stands for anything but itself, so taking the binary form back changes nothing
    have unfold : G.unfold k = fun s => [s] := by
      funext s
      cases s with
      | terminal a => rfl
      | nonterminal B => exact unfold_of_not_isFresh (old B)
    have bodies := map_unfold_bodies_binaryForm wf room (old A)
    rw [unfold] at bodies
    simpa only [List.flatMap_singleton', List.map_id'] using bodies

/-- **Where long bodies are pairs of non-terminals**, binarization succeeds with whatever supply,
hands out no name and changes nothing. -/
theorem IsBinary.binarizeWith_eq (binary : G.IsBinary) (wf : G.WellFormed) (supply : NameSupply) :
    G.binarizeWith supply = (supply.advance G.nonterminals.length, ⟨[.binarized 0 0], .ok G⟩) := by
  have terminals : G.crowdedTerminals = [] := binary.crowdedTerminals_eq_nil wf
  have fresh : G.freshBodies (supply.advance G.nonterminals.length).next = [] := by
    refine List.eq_nil_of_length_eq_zero ?_
    rw [length_freshBodies, binary.blocks_eq_nil wf]
    rfl
  rw [Grammar.binarizeWith_eq]
  simp only [fresh, terminals, binary.binaryForm_eq_self wf]
  rfl

end Grammar

end ContextFree
