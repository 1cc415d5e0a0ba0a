import ContextFree.Proofs.Run

/-!
# The order of declaration

Two well-formed grammars that are the same up to order have the same bodies for each non-terminal,
listed perhaps in another order (`Grammar.sameUpToOrder_iff`). What a grammar derives, what it
reaches by unit productions and what is accessible in it are least sets, described without any
order. So they are the same for both (`Grammar.SameUpToOrder.generates_iff`,
`Grammar.SameUpToOrder.unitReaches_iff`, `Grammar.SameUpToOrder.isAccessible_iff`). The sweeps and
the searches of the two grammars may come upon these sets on different ways and list them in
different orders, but what they list is the same.

The bodies after a stage are described by these sets too. Therefore a stage other than binarization
leads from grammars that are the same up to order to such grammars
(`Grammar.SameUpToOrder.leads`). Binarization numbers its fresh names in the order in which it needs
them, which is the subject of `ContextFree.Proofs.Reordering`.
-/

namespace ContextFree

theorem sameMembers_iff {α : Type} {xs ys : List α} :
    SameMembers xs ys ↔ ∀ x, x ∈ xs ↔ x ∈ ys :=
  ⟨fun ⟨left, right⟩ x => ⟨left x, right x⟩, fun h => ⟨fun x => (h x).mp, fun y => (h y).mpr⟩⟩

/-- Whether a list contains a name depends on its members. -/
theorem contains_congr {xs ys : List Name} (h : ∀ A, A ∈ xs ↔ A ∈ ys) (A : Name) :
    xs.contains A = ys.contains A := by
  rw [Bool.eq_iff_iff, List.contains_iff_mem, List.contains_iff_mem]
  exact h A

/-- The variants of a body depend on what is nullable, and not on the order in which it is
listed. -/
theorem Body.variants_congr {nullable others : List Name} (h : ∀ A, A ∈ nullable ↔ A ∈ others)
    (body : Body) : body.variants nullable = body.variants others := by
  induction body with
  | nil => rfl
  | cons s rest ih =>
    cases s with
    | terminal a => rw [variants, variants, ih]
    | nonterminal A => rw [variants, variants, ih, contains_congr h]

namespace Grammar

variable {G H G' H' : Grammar} {stage : Stage} {A B : Name} {body : Body} {w : List Name}

/-- The grammars are the same up to order if their parts have the same members. -/
theorem sameUpToOrder_iff :
    G.SameUpToOrder H ↔ G.start = H.start ∧ (∀ A, A ∈ G.nonterminals ↔ A ∈ H.nonterminals) ∧
      (∀ a, a ∈ G.terminals ↔ a ∈ H.terminals) ∧ (∀ A, A ∈ G.leftSides ↔ A ∈ H.leftSides) ∧
      ∀ A body, body ∈ G.bodies A ↔ body ∈ H.bodies A := by
  unfold SameUpToOrder
  simp only [sameMembers_iff]
  refine and_congr_right fun _ => and_congr_right fun _ => and_congr_right fun _ =>
    and_congr_right fun leftSides => ⟨fun bodies A body => ?_, fun bodies A _ => bodies A⟩
  by_cases mem : A ∈ G.leftSides
  · exact bodies A mem body
  · -- a name without a rule in one of them has no bodies in either
    have none : A ∉ H.leftSides := fun other => mem ((leftSides A).mpr other)
    rw [bodies_of_not_mem mem, bodies_of_not_mem none]

/-- Of well-formed grammars it is enough to compare the alphabets and the bodies of the declared
non-terminals. -/
theorem WellFormed.sameUpToOrder (wfG : G.WellFormed) (wfH : H.WellFormed)
    (start : G.start = H.start)
    (nonterminals : ∀ A, A ∈ G.nonterminals ↔ A ∈ H.nonterminals)
    (terminals : ∀ a, a ∈ G.terminals ↔ a ∈ H.terminals)
    (bodies : ∀ A ∈ G.nonterminals, ∀ body, body ∈ G.bodies A ↔ body ∈ H.bodies A) :
    G.SameUpToOrder H := by
  refine ⟨start, sameMembers_iff.mpr nonterminals, sameMembers_iff.mpr terminals, ?_, ?_⟩
  · rw [wfG.leftSides_eq, wfH.leftSides_eq]
    exact sameMembers_iff.mpr nonterminals
  · rw [wfG.leftSides_eq]
    exact fun A mem => sameMembers_iff.mpr (bodies A mem)

/-! ### What does not depend on the order -/

theorem UnitReaches.of_bodies_subset (sub : ∀ A, ∀ body ∈ G.bodies A, body ∈ H.bodies A)
    (h : G.UnitReaches A B) : H.UnitReaches A B := by
  induction h with
  | refl => exact .refl
  | step _ mem ih => exact ih.step (sub _ _ mem)

theorem ReachedIn.of_bodies_subset (start : G.start = H.start)
    (sub : ∀ A, ∀ body ∈ G.bodies A, body ∈ H.bodies A) {n : Nat} (h : G.ReachedIn n A) :
    H.ReachedIn n A := by
  induction h with
  | start => exact start ▸ .start
  | step _ mem ih =>
    obtain ⟨body, hbody, mentioned⟩ := mem_mentions_iff.mp mem
    exact ih.step (mem_mentions_iff.mpr ⟨body, sub _ _ hbody, mentioned⟩)

namespace SameUpToOrder

theorem symm (same : G.SameUpToOrder H) : H.SameUpToOrder G := by
  obtain ⟨start, nonterminals, terminals, leftSides, bodies⟩ := sameUpToOrder_iff.mp same
  exact sameUpToOrder_iff.mpr ⟨start.symm, fun A => (nonterminals A).symm,
    fun a => (terminals a).symm, fun A => (leftSides A).symm, fun A body => (bodies A body).symm⟩

theorem start_eq (same : G.SameUpToOrder H) : G.start = H.start := same.1

theorem mem_nonterminals_iff (same : G.SameUpToOrder H) : A ∈ G.nonterminals ↔ A ∈ H.nonterminals :=
  (sameUpToOrder_iff.mp same).2.1 A

theorem mem_terminals_iff (same : G.SameUpToOrder H) {a : Name} :
    a ∈ G.terminals ↔ a ∈ H.terminals :=
  (sameUpToOrder_iff.mp same).2.2.1 a

theorem mem_bodies_iff (same : G.SameUpToOrder H) : body ∈ G.bodies A ↔ body ∈ H.bodies A :=
  (sameUpToOrder_iff.mp same).2.2.2.2 A body

theorem bodies_subset (same : G.SameUpToOrder H) : ∀ A, ∀ body ∈ G.bodies A, body ∈ H.bodies A :=
  fun _ _ => same.mem_bodies_iff.mp

/-- **The same words**: what a non-terminal generates does not depend on the order. -/
theorem generates_iff (same : G.SameUpToOrder H) : G.Generates A w ↔ H.Generates A w :=
  ⟨fun h => h.of_bodies_subset same.bodies_subset,
    fun h => h.of_bodies_subset same.symm.bodies_subset⟩

theorem unitReaches_iff (same : G.SameUpToOrder H) : G.UnitReaches A B ↔ H.UnitReaches A B :=
  ⟨fun h => h.of_bodies_subset same.bodies_subset,
    fun h => h.of_bodies_subset same.symm.bodies_subset⟩

theorem isAccessible_iff (same : G.SameUpToOrder H) : G.IsAccessible A ↔ H.IsAccessible A :=
  exists_congr fun _ =>
    ⟨fun h => h.of_bodies_subset same.start_eq same.bodies_subset,
      fun h => h.of_bodies_subset same.symm.start_eq same.symm.bodies_subset⟩

/-! ### What searches and sweeps find -/

variable (wfG : G.WellFormed) (wfH : H.WellFormed)
include wfG wfH

theorem mem_nullables_iff (same : G.SameUpToOrder H) : A ∈ G.nullables ↔ A ∈ H.nullables := by
  rw [wfG.mem_nullables_iff, wfH.mem_nullables_iff]
  exact same.generates_iff

theorem mem_accessible_iff (same : G.SameUpToOrder H) : A ∈ G.accessible ↔ A ∈ H.accessible := by
  rw [wfG.mem_accessible_iff, wfH.mem_accessible_iff]
  exact same.isAccessible_iff

theorem mem_productives_iff (same : G.SameUpToOrder H) : A ∈ G.productives ↔ A ∈ H.productives := by
  rw [wfG.mem_productives_iff, wfH.mem_productives_iff]
  exact exists_congr fun _ => same.generates_iff

theorem mem_chain_iff (same : G.SameUpToOrder H) (mem : A ∈ G.nonterminals) :
    B ∈ Chain.membersOf G.chains A ↔ B ∈ Chain.membersOf H.chains A := by
  rw [wfG.mem_chain_iff mem, wfH.mem_chain_iff (same.mem_nonterminals_iff.mp mem)]
  exact same.unitReaches_iff

/-! ### The stages -/

theorem withoutEmpty (same : G.SameUpToOrder H) :
    (G.withoutEmpty G.nullables).SameUpToOrder (H.withoutEmpty H.nullables) := by
  refine wfG.withoutEmpty.sameUpToOrder wfH.withoutEmpty same.start_eq
    (fun A => same.mem_nonterminals_iff) (fun a => same.mem_terminals_iff) fun A _ body => ?_
  rw [bodies_withoutEmpty, bodies_withoutEmpty, mem_nonemptyVariants_iff, mem_nonemptyVariants_iff]
  have variants : Body.variants G.nullables = Body.variants H.nullables :=
    funext (Body.variants_congr fun B => same.mem_nullables_iff wfG wfH)
  rw [variants]
  exact and_congr_right fun _ => exists_congr fun old => and_congr_left fun _ => same.mem_bodies_iff

theorem withoutUnits (same : G.SameUpToOrder H) :
    (G.withoutUnits G.chains).SameUpToOrder (H.withoutUnits H.chains) := by
  refine wfG.withoutUnits.sameUpToOrder wfH.withoutUnits same.start_eq
    (fun A => same.mem_nonterminals_iff) (fun a => same.mem_terminals_iff) fun A mem body => ?_
  rw [bodies_withoutUnits, bodies_withoutUnits, mem_properBodies_iff, mem_properBodies_iff]
  refine and_congr_right fun _ => exists_congr fun B => ?_
  exact and_congr (same.mem_chain_iff wfG wfH mem) same.mem_bodies_iff

theorem restrict_accessible (same : G.SameUpToOrder H) :
    (G.restrict G.accessible.contains).SameUpToOrder (H.restrict H.accessible.contains) := by
  have kept : ∀ A, G.accessible.contains A = H.accessible.contains A :=
    contains_congr fun _ => same.mem_accessible_iff wfG wfH
  refine wfG.restrict_accessible.sameUpToOrder wfH.restrict_accessible same.start_eq
    (fun A => ?_) (fun a => same.mem_terminals_iff) fun A _ body => ?_
  · rw [restrict, restrict, List.mem_filter, List.mem_filter, kept]
    exact and_congr_left fun _ => same.mem_nonterminals_iff
  · rw [bodies_restrict, bodies_restrict, kept]
    split
    · exact same.mem_bodies_iff
    · exact Iff.rfl

theorem productivePart (same : G.SameUpToOrder H) :
    G.productivePart.SameUpToOrder H.productivePart := by
  have productive : ∀ B, B ∈ G.productives ↔ B ∈ H.productives :=
    fun B => same.mem_productives_iff wfG wfH
  have outlasts : ∀ A, G.outlasts A ↔ H.outlasts A := by
    intro A
    rw [outlasts_iff, outlasts_iff, same.start_eq]
    exact or_congr_left (productive A)
  refine wfG.productivePart.sameUpToOrder wfH.productivePart same.start_eq
    (fun A => ?_) (fun a => same.mem_terminals_iff) fun A _ body => ?_
  · exact List.mem_filter.trans
      ((and_congr same.mem_nonterminals_iff (outlasts A)).trans List.mem_filter.symm)
  · rw [mem_bodies_productivePart_iff, mem_bodies_productivePart_iff, Body.isProductive_iff,
      Body.isProductive_iff]
    refine and_congr (outlasts A) (and_congr same.mem_bodies_iff ?_)
    exact forall_congr' fun B => imp_congr_right fun _ => productive B

/-- **Stages keep grammars the same up to order**, with the exception of binarization. -/
theorem leads (same : G.SameUpToOrder H) (ne : stage ≠ .binarize) (leadsG : G.Leads stage G')
    (leadsH : H.Leads stage H') : G'.SameUpToOrder H' := by
  cases leadsG with
  | eliminateEmpty =>
    cases leadsH
    exact same.withoutEmpty wfG wfH
  | removeUnits =>
    cases leadsH
    exact same.withoutUnits wfG wfH
  | removeInaccessible =>
    cases leadsH
    exact same.restrict_accessible wfG wfH
  | removeNonproductive =>
    cases leadsH
    exact same.productivePart wfG wfH
  | binarize room => exact absurd rfl ne

end SameUpToOrder

end Grammar

end ContextFree
