import ContextFree.Proofs.SecondRun

/-!
# What pruning keeps

Pruning leaves out non-terminals, and with them bodies. What is kept is told by two conditions, one
on non-terminals and one on bodies (`Grammar.PrunesTo`). It is kept in its old order, and no
non-terminal that is kept generates other words than before.

* A non-terminal that is not productive goes, together with every body that mentions it. The start
  symbol is an exception (`Grammar.WellFormed.prunesTo_productivePart`): it stays, but if it is not
  productive, then all of its bodies go and so does every body that mentions it.
* A non-terminal that is not accessible goes, and no body of the others is lost
  (`Grammar.WellFormed.prunesTo_restrict_accessible`).
-/

namespace ContextFree

namespace Grammar

variable {G H : Grammar} {A : Name}

/-- The grammar `H` is what is left of `G` when the non-terminals and the bodies that satisfy the
conditions are kept and the others are not. -/
structure PrunesTo (G H : Grammar) (keeps : Name → Prop) (spares : Body → Prop) : Prop where
  /-- There is still one rule for each non-terminal, in the order of declaration. -/
  wellFormed : H.WellFormed
  start_eq : H.start = G.start
  /-- Terminals stay declared, whether or not a body still mentions them. -/
  terminals_eq : H.terminals = G.terminals
  /-- The non-terminals are in their old order. -/
  nonterminals_sublist : H.nonterminals.Sublist G.nonterminals
  mem_nonterminals_iff : ∀ A, A ∈ H.nonterminals ↔ A ∈ G.nonterminals ∧ keeps A
  /-- The bodies of each non-terminal are in their old order. -/
  bodies_sublist : ∀ A ∈ H.nonterminals, (H.bodies A).Sublist (G.bodies A)
  mem_bodies_iff : ∀ A ∈ H.nonterminals, ∀ body,
    body ∈ H.bodies A ↔ body ∈ G.bodies A ∧ spares body
  /-- What is kept generates the words that it generated. -/
  generates_iff : ∀ A ∈ H.nonterminals, ∀ w, H.Generates A w ↔ G.Generates A w

/-! ### Productive non-terminals -/

/-- A non-terminal generates some word, be it the empty one. -/
def IsProductive (G : Grammar) (A : Name) : Prop := ∃ w, G.Generates A w

theorem nodup_productives (G : Grammar) : G.productives.Nodup := nodup_swept

/-- A body is ripe in the end if all that it mentions is productive. -/
theorem WellFormed.isProductive_productives_iff (wf : G.WellFormed) {body : Body} :
    body.isProductive G.productives ↔ ∀ B, .nonterminal B ∈ body → G.IsProductive B :=
  Body.isProductive_iff.trans <|
    forall_congr' fun _ => imp_congr_right fun _ => wf.mem_productives_iff

/-- **Pruning what is not productive** keeps the start symbol in any case. -/
theorem WellFormed.prunesTo_productivePart (wf : G.WellFormed) :
    G.PrunesTo G.productivePart (fun A => G.IsProductive A ∨ A = G.start)
      (fun body => ∀ B, .nonterminal B ∈ body → G.IsProductive B) where
  wellFormed := wf.productivePart
  start_eq := rfl
  terminals_eq := rfl
  nonterminals_sublist := List.filter_sublist
  mem_nonterminals_iff A :=
    List.mem_filter.trans <| and_congr_right fun _ =>
      outlasts_iff.trans (or_congr_left wf.mem_productives_iff)
  bodies_sublist A mem := by
    rw [bodies_productivePart, if_pos (List.mem_filter.mp mem).2]
    exact List.filter_sublist
  mem_bodies_iff A mem body := by
    rw [mem_bodies_productivePart_iff, wf.isProductive_productives_iff]
    exact and_iff_right (List.mem_filter.mp mem).2
  generates_iff _ _ _ := wf.generates_productivePart_iff

/-- **The search for productive non-terminals finds them all**, and each of them once. The pruning
of the others keeps the productive non-terminals, the start symbol and the bodies in which all
non-terminals are productive. If the start symbol is not productive, it is kept without bodies, and
no body mentions it. -/
theorem WellFormed.exists_removeNonproductive (wf : G.WellFormed) :
    (∃ found, G.productive.outcome = .ok found ∧ found.Nodup ∧
      ∀ A, A ∈ found ↔ A ∈ G.nonterminals ∧ G.IsProductive A) ∧
    ∃ H, G.removeNonproductive.outcome = .ok H ∧
      G.PrunesTo H (fun A => G.IsProductive A ∨ A = G.start)
        (fun body => ∀ B, .nonterminal B ∈ body → G.IsProductive B) ∧
      (¬ G.IsProductive G.start → G.start ∈ H.nonterminals ∧ H.bodies G.start = [] ∧
        ∀ A, ∀ body ∈ H.bodies A, .nonterminal G.start ∉ body) := by
  have declared : ∀ A, G.IsProductive A → A ∈ G.nonterminals := by
    rintro A ⟨w, body, mem, _⟩
    exact wf.mem_of_mem_bodies mem
  refine ⟨⟨_, wf.outcome_productive, nodup_productives G, fun A => ?_⟩,
    _, wf.outcome_removeNonproductive, wf.prunesTo_productivePart, fun barren => ?_⟩
  · rw [wf.mem_productives_iff]
    exact (and_iff_right_of_imp (declared A)).symm
  · -- every body that is left derives a word
    have fruitful := wf.isFruitful_productivePart
    have unproductive : ∀ w, ¬ G.productivePart.Generates G.start w := fun w h =>
      barren ⟨w, wf.generates_productivePart_iff.mp h⟩
    refine ⟨wf.productivePart.start_mem, List.eq_nil_iff_forall_not_mem.mpr ?_, ?_⟩
    · intro body mem
      obtain ⟨w, derives⟩ := fruitful.derives G.start body mem
      exact unproductive w ⟨body, mem, derives⟩
    · intro A body mem mentioned
      obtain ⟨w, derives⟩ := fruitful.derives A body mem
      obtain ⟨u, h⟩ := derives.exists_generates mentioned
      exact unproductive u h

/-- The grammar `S → A S`, `A → a A | B | ε`, `B → S | b B`. Only `A` is productive. -/
def endless : Grammar where
  start := .ofCons 'S' []
  nonterminals := [.ofCons 'S' [], .ofCons 'A' [], .ofCons 'B' []]
  terminals := [.ofCons 'a' [], .ofCons 'b' []]
  rules := [
    ⟨.ofCons 'S' [], [[.nonterminal (.ofCons 'A' []), .nonterminal (.ofCons 'S' [])]]⟩,
    ⟨.ofCons 'A' [],
      [[.terminal (.ofCons 'a' []), .nonterminal (.ofCons 'A' [])],
        [.nonterminal (.ofCons 'B' [])], []]⟩,
    ⟨.ofCons 'B' [],
      [[.nonterminal (.ofCons 'S' [])],
        [.terminal (.ofCons 'b' []), .nonterminal (.ofCons 'B' [])]]⟩]

/-- The non-terminal `B` is left out, with the body of `A` that is `B`; the start symbol stays. -/
theorem endless_removeNonproductive :
    endless.WellFormed ∧ endless.productive.outcome = .ok [.ofCons 'A' []] ∧
      ∃ H, endless.removeNonproductive.outcome = .ok H ∧
        endless.PrunesTo H (fun A => endless.IsProductive A ∨ A = endless.start)
          (fun body => ∀ B, .nonterminal B ∈ body → endless.IsProductive B) ∧
        H.nonterminals = [.ofCons 'S' [], .ofCons 'A' []] ∧ H.bodies (.ofCons 'S' []) = [] ∧
        H.bodies (.ofCons 'A' []) =
          [[.terminal (.ofCons 'a' []), .nonterminal (.ofCons 'A' [])], []] := by
  have wf : endless.WellFormed := wellFormed_iff_ofRows?_eq_ok.mpr rfl
  have found : endless.productive.outcome = .ok [.ofCons 'A' []] := by decide +kernel
  obtain ⟨⟨names, outcome, _, mem⟩, H, ok, prunes, start⟩ := wf.exists_removeNonproductive
  -- the start symbol is not among the names that are found
  have barren : ¬ endless.IsProductive endless.start := by
    intro productive
    have member := (mem endless.start).mpr ⟨wf.start_mem, productive⟩
    rw [← Except.ok.inj (found.symm.trans outcome)] at member
    exact absurd member (by decide)
  have same : endless.productivePart = H :=
    Except.ok.inj (wf.outcome_removeNonproductive.symm.trans ok)
  refine ⟨wf, found, H, ok, prunes, ?_, (start barren).2.1, ?_⟩
  · rw [← same]
    decide +kernel
  · rw [← same]
    decide +kernel

/-! ### Accessible non-terminals -/

/-- **Pruning what is not accessible** keeps all bodies of what is kept. -/
theorem WellFormed.prunesTo_restrict_accessible (wf : G.WellFormed) :
    G.PrunesTo (G.restrict G.accessible.contains) G.IsAccessible (fun _ => True) := by
  have kept : ∀ A ∈ (G.restrict G.accessible.contains).nonterminals,
      (G.restrict G.accessible.contains).bodies A = G.bodies A := by
    intro A mem
    rw [bodies_restrict, if_pos (List.mem_filter.mp mem).2]
  exact {
    wellFormed := wf.restrict_accessible
    start_eq := rfl
    terminals_eq := rfl
    nonterminals_sublist := List.filter_sublist
    mem_nonterminals_iff := fun A => List.mem_filter.trans <|
      and_congr_right fun _ => List.contains_iff_mem.trans wf.mem_accessible_iff
    bodies_sublist := fun A mem => by rw [kept A mem]
    mem_bodies_iff := fun A mem body => by rw [kept A mem, and_true]
    generates_iff := fun A mem w => wf.generates_restrict_accessible_iff
      (List.contains_iff_mem.mp (List.mem_filter.mp mem).2) }

end Grammar

end ContextFree
