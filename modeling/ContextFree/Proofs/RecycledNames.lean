import ContextFree.Proofs.Emptiness
import ContextFree.Proofs.FreshNames
import ContextFree.Proofs.SharedSupply

/-!
# Recycled names

Binarization hands out names that are not declared, but it comes last: it looks at the grammar that
the other stages have left, in which some non-terminals are pruned. The names of these are no longer
declared. The numbers do not keep clear of them either, because they start at how many non-terminals
are left. So the name of a non-terminal that has been pruned can be handed out again, and then it
stands for something else. Such a name is **recycled** (`Grammar.IsRecycled`).

* `Grammar.WellFormed.introduced_toNormalForm` — which names are handed out by all stages;
* `Grammar.WellFormed.generates_pruned_iff` — a non-terminal that is not pruned keeps its words;
* `Grammar.WellFormed.isRecycled_iff_of_toNormalForm` — the recycled names are the only ones that
  are handed out although the grammar has declared them, and all others mean what they meant.

The grammar `shadowed` has a name that is recycled (`Grammar.shadowed_recycles`).
-/

namespace ContextFree

namespace Grammar

variable {G H : Grammar} {A : Name} {w : List Name}

/-- The non-terminal is pruned, and its name is one of those that the binarization takes. -/
def IsRecycled (G : Grammar) (A : Name) : Prop :=
  A ∈ G.nonterminals ∧ A ∉ G.pruned.nonterminals ∧
    ∃ i < G.pruned.freshCount, A = .numbered (G.pruned.nonterminals.length + i)

instance (G : Grammar) : DecidablePred G.IsRecycled := fun _ =>
  inferInstanceAs (Decidable (_ ∧ _ ∧ _))

/-- **What is not pruned keeps its words**, except for the empty word. -/
theorem WellFormed.generates_pruned_iff (wf : G.WellFormed) (mem : A ∈ G.pruned.nonterminals) :
    G.pruned.Generates A w ↔ w ≠ [] ∧ G.Generates A w :=
  wf.cleared.generates_productivePart_iff.trans
    (wf.generates_cleared_iff (List.mem_filter.mp mem).1)

/-- The names that all stages hand out are the names that the binarization takes, and these are the
new non-terminals. -/
theorem WellFormed.introduced_toNormalForm (wf : G.WellFormed)
    (ok : G.toNormalForm.outcome = .ok H) :
    H.nonterminals = G.pruned.nonterminals ++ G.toNormalForm.introduced ∧
      ∀ Z, Z ∈ G.toNormalForm.introduced ↔
        ∃ i < G.pruned.freshCount, Z = .numbered (G.pruned.nonterminals.length + i) := by
  obtain ⟨introduced, outcome⟩ := Prod.mk.inj wf.upshot_toNormalForm
  have binarized : (G.pruned.binarizeWith .full).2.outcome = .ok H := outcome.symm.trans ok
  have added : H.nonterminals = G.pruned.nonterminals ++ G.toNormalForm.introduced :=
    calc H.nonterminals
        = G.pruned.nonterminals ++ (G.pruned.binarizeWith .full).2.introduced :=
          nonterminals_of_binarizeWith binarized
      _ = G.pruned.nonterminals ++ G.toNormalForm.introduced := congrArg _ introduced.symm
  refine ⟨added, fun Z => ?_⟩
  -- the binary form has the same non-terminals behind the old ones
  obtain ⟨_, rfl⟩ := binarizeWith_eq_ok binarized
  have names := List.append_cancel_left (nonterminals_binaryForm.symm.trans added)
  rw [← names, ← isFresh_iff_mem, IsFresh, wf.pruned.length_blocks]
  simp [NameSupply.full]

/-- **A name that is handed out is new, unless it is recycled.** The fresh non-terminals come after
those that are not pruned; no terminal and no non-terminal that is still there lends its name. A
name that both grammars declare, and that is not recycled, goes on to generate the words that it
generated, except for the empty word; so the two grammars can be compared name by name where no name
is recycled. -/
theorem WellFormed.isRecycled_iff_of_toNormalForm (wf : G.WellFormed)
    (ok : G.toNormalForm.outcome = .ok H) :
    H.nonterminals = G.pruned.nonterminals ++ G.toNormalForm.introduced ∧
    (∀ Z, Z ∈ G.toNormalForm.introduced ∧ (Z ∈ G.nonterminals ∨ Z ∈ G.terminals) ↔
      G.IsRecycled Z) ∧
    ((∀ Z ∈ G.toNormalForm.introduced, Z ∉ G.nonterminals ∧ Z ∉ G.terminals) ↔
      ∀ Z, ¬ G.IsRecycled Z) ∧
    ∀ A ∈ H.nonterminals, A ∈ G.nonterminals → ¬ G.IsRecycled A →
      ∀ w, H.Generates A w ↔ w ≠ [] ∧ G.Generates A w := by
  obtain ⟨added, mem_introduced⟩ := wf.introduced_toNormalForm ok
  obtain ⟨k, room, rfl⟩ := wf.exists_binaryForm_of_toNormalForm ok
  have new : ∀ Z ∈ G.toNormalForm.introduced,
      Z ∉ G.pruned.nonterminals ∧ Z ∉ G.pruned.terminals := by
    intro Z mem
    have names := List.append_cancel_left (nonterminals_binaryForm.symm.trans added)
    rw [← names, ← isFresh_iff_mem] at mem
    exact room Z mem
  have recycled : ∀ Z, Z ∈ G.toNormalForm.introduced ∧ (Z ∈ G.nonterminals ∨ Z ∈ G.terminals) ↔
      G.IsRecycled Z := by
    intro Z
    constructor
    · rintro ⟨mem, declared⟩
      -- the stages before the binarization keep all terminals
      have old : Z ∈ G.nonterminals := declared.resolve_right (new Z mem).2
      exact ⟨old, (new Z mem).1, (mem_introduced Z).mp mem⟩
    · rintro ⟨old, _, taken⟩
      exact ⟨(mem_introduced Z).mpr taken, .inl old⟩
  refine ⟨added, recycled, ?_, fun A mem old not w => ?_⟩
  · refine forall_congr' fun Z => ?_
    rw [← recycled Z, not_and, not_or]
  · -- a name that is not handed out is that of a non-terminal which is still there
    have kept : A ∈ G.pruned.nonterminals := by
      rw [added, List.mem_append] at mem
      exact mem.resolve_right fun handed => not ((recycled A).mp ⟨handed, .inl old⟩)
    rw [generates_binaryForm_iff_of_mem wf.pruned room kept, wf.generates_pruned_iff kept]

/-- The grammar `S → a b`, `Z1 → c`. Nothing leads from the start symbol to `Z1`, and without it
there is one non-terminal left, so the first number is `1`. -/
def shadowed : Grammar where
  start := .ofCons 'S' []
  nonterminals := [.ofCons 'S' [], .numbered 1]
  terminals := [.ofCons 'a' [], .ofCons 'b' [], .ofCons 'c' []]
  rules := [
    ⟨.ofCons 'S' [], [[.terminal (.ofCons 'a' []), .terminal (.ofCons 'b' [])]]⟩,
    ⟨.numbered 1, [[.terminal (.ofCons 'c' [])]]⟩]

theorem shadowed_wellFormed : shadowed.WellFormed := by
  refine wellFormed_iff_ofRows?_eq_ok.mpr ?_
  decide +kernel

theorem shadowed_toNormalForm :
    shadowed.toNormalForm.outcome = .ok (shadowed.run (Stage.all.map (·, .full))) := by
  decide +kernel

/-- The name `Z1` is recycled, and the start symbol keeps its words. -/
theorem shadowed_isRecycled_iff :
    shadowed.WellFormed ∧ ∃ H, shadowed.toNormalForm.outcome = .ok H ∧
      shadowed.IsRecycled (.numbered 1) ∧
      .numbered 1 ∈ shadowed.toNormalForm.introduced ∧
      ∀ w, H.Generates shadowed.start w ↔ w ≠ [] ∧ shadowed.Generates shadowed.start w := by
  obtain ⟨_, recycled, _, words⟩ :=
    shadowed_wellFormed.isRecycled_iff_of_toNormalForm shadowed_toNormalForm
  have again : shadowed.IsRecycled (.numbered 1) := by decide +kernel
  refine ⟨shadowed_wellFormed, _, shadowed_toNormalForm, again, ((recycled _).mpr again).1, ?_⟩
  exact words shadowed.start (by decide +kernel) (by decide +kernel) (by decide +kernel)

/-- **A name can come back with another meaning**: `Z1` is declared and is handed out all the same.
It generated the word `c` only, and now it generates the word `a`. -/
theorem shadowed_recycles :
    shadowed.WellFormed ∧ ∃ H, shadowed.toNormalForm.outcome = .ok H ∧
      .numbered 1 ∈ shadowed.toNormalForm.introduced ∧ .numbered 1 ∈ shadowed.nonterminals ∧
      .numbered 1 ∈ H.nonterminals ∧ H.Generates (.numbered 1) [.ofCons 'a' []] ∧
      ¬ shadowed.Generates (.numbered 1) [.ofCons 'a' []] := by
  refine ⟨shadowed_wellFormed, _, shadowed_toNormalForm, by decide +kernel, by decide,
    by decide +kernel, ⟨[.terminal (.ofCons 'a' [])], by decide +kernel, .terminal .nil⟩, ?_⟩
  rintro ⟨body, mem, derives⟩
  have only : shadowed.bodies (.numbered 1) = [[.terminal (.ofCons 'c' [])]] := by decide +kernel
  rw [only, List.mem_singleton] at mem
  obtain ⟨_, same, _⟩ := derives_terminal_iff.mp (mem ▸ derives)
  exact absurd (List.cons.inj same).1 (by decide)

end Grammar

end ContextFree
