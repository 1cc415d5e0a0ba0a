import ContextFree.Proofs.Fruitful

/-!
# Taking all stages again

The stages look for different things, and what one of them leaves may give another one something to
find: a non-terminal can become inaccessible when the bodies that mention it are pruned for not
being productive, and at that time the pruning of what is not accessible is over. So taking all
stages once is not always enough. It is almost enough. What they lead to is **finished**
(`Grammar.IsFinished`): it has no empty bodies, no unit productions, no long bodies but pairs of
non-terminals, and it is fruitful. Of all stages, only the pruning of what is not accessible may
find something there.

* `Grammar.WellFormed.isFinished_of_toNormalForm` — all stages lead to a finished grammar;
* `Grammar.IsFinished.upshot_toNormalForm` — of a finished grammar they prune what is not
  accessible, and that is all they do;
* `Grammar.WellFormed.restrict_accessible_twice` — afterwards everything is accessible.

Hence a second run through all stages is this pruning, and a third one changes nothing
(`Grammar.WellFormed.toNormalForm_again`).

A single stage is another matter: each of the four that hand out no names is done with its own work
at once (`Grammar.WellFormed.exists_apply_twice`).
-/

namespace ContextFree

namespace Grammar

open Report (introduced_bind_eq_nil upshot_bind_of_ok)

variable {G H : Grammar} {stage : Stage} {supply : NameSupply} {A : Name}

/-! ### Stages that hand out no names -/

theorem introduced_saturate {α : Type} [DecidableEq α] (closure : Closure) (bound : Nat)
    (round : α → α) (a : α) : (saturate closure bound round a).introduced = [] := by
  unfold saturate
  simp only
  split <;> rfl

/-- **Only binarization hands out names.** -/
theorem introduced_apply (ne : stage ≠ .binarize) (supply : NameSupply) (G : Grammar) :
    (stage.apply supply G).2.introduced = [] := by
  cases stage with
  | eliminateEmpty => exact introduced_bind_eq_nil (introduced_saturate ..) fun _ => rfl
  | removeUnits =>
    refine introduced_bind_eq_nil (introduced_saturate ..) fun chains => ?_
    refine introduced_bind_eq_nil ?_ fun _ => rfl
    -- one event for each chain, and none of them tells of a name that is handed out
    rw [Report.introduced, Report.notes, List.filterMap_map]
    exact List.filterMap_eq_nil_iff.mpr fun _ _ => rfl
  | removeInaccessible =>
    simp only [Stage.apply, removeInaccessible]
    split <;> rfl
  | removeNonproductive =>
    refine introduced_bind_eq_nil (introduced_saturate ..) fun productive => ?_
    simp only
    split <;> split <;> rfl
  | binarize => exact absurd rfl ne

theorem upshot_applyAll_cons {stages : List Stage} (ne : stage ≠ .binarize)
    (ok : (stage.apply supply G).2.outcome = .ok H) :
    (applyAll (stage :: stages) supply G).upshot
      = (applyAll stages (stage.apply supply G).1 H).upshot := by
  rw [applyAll_cons]
  exact upshot_bind_of_ok ok (introduced_apply ne supply G) _

/-! ### What all stages come to -/

/-- What all stages but the last lead to. -/
def pruned (G : Grammar) : Grammar :=
  let nonempty := G.withoutEmpty G.nullables
  let proper := nonempty.withoutUnits nonempty.chains
  (proper.restrict proper.accessible.contains).productivePart

/-- **All stages come to a binarization of what the others lead to.** -/
theorem WellFormed.upshot_toNormalForm (wf : G.WellFormed) :
    G.toNormalForm.upshot = (G.pruned.binarizeWith .full).2.upshot := by
  have wfNonempty : (G.withoutEmpty G.nullables).WellFormed := wf.withoutEmpty
  have wfProper := wfNonempty.withoutUnits
  have wfAccessible := wfProper.restrict_accessible
  calc G.toNormalForm.upshot
      = (applyAll [.removeUnits, .removeInaccessible, .removeNonproductive, .binarize] .full
          (G.withoutEmpty G.nullables)).upshot :=
        upshot_applyAll_cons nofun wf.outcome_eliminateEmpty
    _ = (applyAll [.removeInaccessible, .removeNonproductive, .binarize] .full _).upshot :=
        upshot_applyAll_cons nofun wfNonempty.outcome_removeUnits
    _ = (applyAll [.removeNonproductive, .binarize] .full _).upshot :=
        upshot_applyAll_cons nofun outcome_removeInaccessible
    _ = (applyAll [.binarize] .full G.pruned).upshot :=
        upshot_applyAll_cons nofun wfAccessible.outcome_removeNonproductive
    _ = (G.pruned.binarizeWith .full).2.upshot := by
        rw [applyAll_cons]
        exact congrArg Report.upshot (Report.bind_pure_eq _)

theorem WellFormed.pruned (wf : G.WellFormed) : G.pruned.WellFormed :=
  wf.withoutEmpty.withoutUnits.restrict_accessible.productivePart

/-- What all stages lead to is a binary form of what the others lead to. -/
theorem WellFormed.exists_binaryForm_of_toNormalForm (wf : G.WellFormed)
    (ok : G.toNormalForm.outcome = .ok H) :
    ∃ k, G.pruned.HasRoom k ∧ H = G.pruned.binaryForm k := by
  have outcome : (G.pruned.binarizeWith .full).2.outcome = .ok H := by
    rw [← ok]
    exact (congrArg Prod.snd wf.upshot_toNormalForm).symm
  exact ⟨_, binarizeWith_eq_ok outcome⟩

/-! ### Finished grammars -/

/-- Of all stages, only the pruning of what is not accessible may change the grammar. -/
structure IsFinished (G : Grammar) : Prop where
  wellFormed : G.WellFormed
  proper : G.IsProper
  binary : G.IsBinary
  fruitful : G.IsFruitful

/-- **All stages lead to a finished grammar.** -/
theorem WellFormed.isFinished_of_toNormalForm (wf : G.WellFormed)
    (ok : G.toNormalForm.outcome = .ok H) : H.IsFinished := by
  obtain ⟨k, room, rfl⟩ := wf.exists_binaryForm_of_toNormalForm ok
  have wfNonempty : (G.withoutEmpty G.nullables).WellFormed := wf.withoutEmpty
  have wfProper := wfNonempty.withoutUnits
  have wfAccessible := wfProper.restrict_accessible
  have last : G.pruned.Leads .binarize (G.pruned.binaryForm k) := .binarize room
  -- after the first two stages the grammar is proper, and the others keep it so
  have proper : (Grammar.withoutUnits _ _).IsProper :=
    ⟨Leads.removeUnits.nil_notMem wfNonempty nil_notMem_bodies_withoutEmpty,
      Leads.removeUnits.unit_notMem_of_removeUnits⟩
  have properPruned : G.pruned.IsProper :=
    Leads.removeNonproductive.isProper wfAccessible
      (Leads.removeInaccessible.isProper wfProper proper)
  have fruitful : G.pruned.IsFruitful := wfAccessible.isFruitful_productivePart
  exact ⟨last.wellFormed wf.pruned, last.isProper wf.pruned properPruned,
    last.isBinary_of_binarize, fruitful.binaryForm wf.pruned room⟩

/-- A finished grammar is pruned by leaving out what is not accessible. -/
theorem IsFinished.pruned_eq (finished : G.IsFinished) :
    G.pruned = G.restrict G.accessible.contains := by
  have wf := finished.wellFormed
  have nonempty : G.withoutEmpty G.nullables = G :=
    wf.withoutEmpty_eq_self finished.proper.nil_notMem
  have unitless : G.withoutUnits G.chains = G := wf.withoutUnits_eq_self finished.proper.unit_notMem
  unfold Grammar.pruned
  simp only [nonempty, unitless]
  exact (finished.fruitful.restrict_accessible wf).productivePart_eq_self wf.restrict_accessible

theorem IsFinished.restrict_accessible (finished : G.IsFinished) :
    (G.restrict G.accessible.contains).IsFinished := by
  have wf := finished.wellFormed
  have leads : G.Leads .removeInaccessible (G.restrict G.accessible.contains) := .removeInaccessible
  exact ⟨wf.restrict_accessible, leads.isProper wf finished.proper,
    leads.isBinary wf finished.binary, finished.fruitful.restrict_accessible wf⟩

/-- **All stages together leave out of a finished grammar what is not accessible**, and do nothing
else. -/
theorem IsFinished.upshot_toNormalForm (finished : G.IsFinished) :
    G.toNormalForm.upshot = ([], .ok (G.restrict G.accessible.contains)) := by
  have kept := finished.restrict_accessible
  rw [finished.wellFormed.upshot_toNormalForm, finished.pruned_eq,
    kept.binary.binarizeWith_eq kept.wellFormed]
  rfl

/-! ### What is accessible stays accessible -/

/-- The ways from the start symbol are still there when what is not accessible is left out. -/
theorem WellFormed.reachedIn_restrict_accessible (wf : G.WellFormed) {n : Nat}
    (reached : G.ReachedIn n A) : (G.restrict G.accessible.contains).ReachedIn n A := by
  induction reached with
  | start => exact .start
  | step before mem ih =>
    -- the bodies of the non-terminal before are kept
    have accessible := wf.mem_accessible_iff.mpr ⟨_, before⟩
    refine ih.step ?_
    rw [mentions, bodies_restrict, if_pos (List.contains_iff_mem.mpr accessible)]
    exact mem

theorem WellFormed.isAccessible_restrict_accessible (wf : G.WellFormed)
    (mem : A ∈ (G.restrict G.accessible.contains).nonterminals) :
    (G.restrict G.accessible.contains).IsAccessible A := by
  have kept : A ∈ G.accessible := List.contains_iff_mem.mp (List.mem_filter.mp mem).2
  obtain ⟨n, reached⟩ := wf.mem_accessible_iff.mp kept
  exact ⟨n, wf.reachedIn_restrict_accessible reached⟩

/-- **Pruning what is not accessible is done at once.** -/
theorem WellFormed.restrict_accessible_twice (wf : G.WellFormed) :
    (G.restrict G.accessible.contains).restrict
        (G.restrict G.accessible.contains).accessible.contains
      = G.restrict G.accessible.contains := by
  refine wf.restrict_accessible.restrict_accessible_eq_self fun A mem => ?_
  exact wf.restrict_accessible.mem_accessible_iff.mpr (wf.isAccessible_restrict_accessible mem)

/-! ### A single stage again -/

/-- What a stage leads to is left alone by the same stage, unless it is binarization, which may run
out of names. -/
theorem Leads.outcome_apply_again (leads : G.Leads stage H) (wf : G.WellFormed)
    (ne : stage ≠ .binarize) (supply : NameSupply) :
    (stage.apply supply H).2.outcome = .ok H := by
  have wfH : H.WellFormed := leads.wellFormed wf
  cases leads with
  | eliminateEmpty =>
    -- without empty bodies nothing is nullable any more
    have same := wfH.withoutEmpty_eq_self nil_notMem_bodies_withoutEmpty
    exact wfH.outcome_eliminateEmpty.trans (congrArg Except.ok same)
  | removeUnits =>
    -- without unit productions the chain of a non-terminal is the non-terminal alone
    have same := wfH.withoutUnits_eq_self Leads.removeUnits.unit_notMem_of_removeUnits
    exact wfH.outcome_removeUnits.trans (congrArg Except.ok same)
  | removeInaccessible =>
    exact outcome_removeInaccessible.trans (congrArg Except.ok wf.restrict_accessible_twice)
  | removeNonproductive =>
    -- what is kept derives its words without what has been left out
    have same := wf.isFruitful_productivePart.productivePart_eq_self wfH
    exact wfH.outcome_removeNonproductive.trans (congrArg Except.ok same)
  | binarize room => exact absurd rfl ne

/-- **A stage taken twice** leads to the same grammar as a stage taken once, with everything in the
same order, if it is any of the four stages that hand out no names. -/
theorem WellFormed.exists_apply_twice (wf : G.WellFormed) (ne : stage ≠ .binarize)
    (supply again : NameSupply) :
    ∃ H, (stage.apply supply G).2.outcome = .ok H ∧ (stage.apply again H).2.outcome = .ok H := by
  obtain ⟨H, ok⟩ := wf.exists_outcome_eq_ok ne supply
  exact ⟨H, ok, (wf.leads_of_apply ok).outcome_apply_again wf ne again⟩

/-- In the grammar `S → A A | A | b`, `A → S | ε` the unit productions lead in a circle. They are
removed the first time, and the second time there is nothing to do. -/
theorem loops_apply_twice :
    loops.WellFormed ∧ Stage.removeUnits ≠ .binarize ∧
      ∃ H, loops.removeUnits.outcome = .ok H ∧ H ≠ loops ∧ H.removeUnits.outcome = .ok H := by
  have first : loops.removeUnits.outcome = .ok (loops.after .removeUnits .full) := by
    decide +kernel
  have other : loops.after .removeUnits .full ≠ loops := by decide +kernel
  obtain ⟨H, ok, again⟩ :=
    loops_wellFormed.exists_apply_twice (show Stage.removeUnits ≠ .binarize from nofun) .full .full
  obtain rfl := Except.ok.inj (first.symm.trans ok)
  exact ⟨loops_wellFormed, nofun, _, first, other, again⟩

/-! ### Again -/

/-- **Taking all stages again** succeeds, hands out no name and prunes what is not accessible. After
that, everything is accessible and taking all stages changes nothing. Everything else has been found
the first time: every non-terminal but perhaps the start symbol generates some word. -/
theorem WellFormed.toNormalForm_again (wf : G.WellFormed) (ok : G.toNormalForm.outcome = .ok H) :
    (∀ A ∈ H.nonterminals, A ≠ H.start → ∃ w, H.Generates A w) ∧
      ∃ K, H.removeInaccessible.outcome = .ok K ∧
        H.toNormalForm.outcome = .ok K ∧ H.toNormalForm.introduced = [] ∧
        K.toNormalForm.outcome = .ok K ∧ K.toNormalForm.introduced = [] ∧
        ∀ A ∈ K.nonterminals, K.IsAccessible A := by
  have finished := wf.isFinished_of_toNormalForm ok
  have second := finished.upshot_toNormalForm
  have third := finished.restrict_accessible.upshot_toNormalForm
  rw [finished.wellFormed.restrict_accessible_twice] at third
  obtain ⟨secondNames, secondOutcome⟩ := Prod.mk.inj second
  obtain ⟨thirdNames, thirdOutcome⟩ := Prod.mk.inj third
  refine ⟨finished.fruitful.generates, _, outcome_removeInaccessible, secondOutcome, secondNames,
    thirdOutcome, thirdNames, fun A mem => ?_⟩
  exact finished.wellFormed.isAccessible_restrict_accessible mem

/-- The grammar `S → A B | b`, `A → a`, `B → b B`. Nothing is derived from `B`, and without the body
`A B` nothing leads to `A` any more. -/
def leftover : Grammar where
  start := .ofCons 'S' []
  nonterminals := [.ofCons 'S' [], .ofCons 'A' [], .ofCons 'B' []]
  terminals := [.ofCons 'a' [], .ofCons 'b' []]
  rules := [
    ⟨.ofCons 'S' [],
      [[.nonterminal (.ofCons 'A' []), .nonterminal (.ofCons 'B' [])],
        [.terminal (.ofCons 'b' [])]]⟩,
    ⟨.ofCons 'A' [], [[.terminal (.ofCons 'a' [])]]⟩,
    ⟨.ofCons 'B' [], [[.terminal (.ofCons 'b' []), .nonterminal (.ofCons 'B' [])]]⟩]

/-- The first time `A` is left over, the second time it is pruned. -/
theorem leftover_toNormalForm_again :
    leftover.WellFormed ∧ ∃ H K, leftover.toNormalForm.outcome = .ok H ∧
      H.nonterminals = [.ofCons 'S' [], .ofCons 'A' []] ∧
      H.toNormalForm.outcome = .ok K ∧ K.nonterminals = [.ofCons 'S' []] ∧
      K.toNormalForm.outcome = .ok K := by
  have wf : leftover.WellFormed := wellFormed_iff_ofRows?_eq_ok.mpr rfl
  have ok : leftover.toNormalForm.outcome = .ok (leftover.run (Stage.all.map (·, .full))) := by
    decide +kernel
  obtain ⟨_, K, pruning, second, _, third, _⟩ := wf.toNormalForm_again ok
  have same := outcome_removeInaccessible.symm.trans pruning
  refine ⟨wf, _, K, ok, by decide +kernel, second, ?_, third⟩
  rw [← Except.ok.inj same]
  decide +kernel

end Grammar

end ContextFree
