import ContextFree.Proofs.Naming
import ContextFree.Proofs.Order
import Mathlib.Logic.Equiv.Basic

/-!
# Binarization and the order of declaration

Two well-formed grammars that are the same up to order need names for the same places
(`Grammar.SameUpToOrder.places_perm`). So equally many names are asked for, and both binarizations
fail for the same reason or both succeed. But the two grammars come to their places in different
orders, so a place may have one name in one binary form and another name in the other.

There are as many names as places, and the names are the same for both grammars. Therefore some
permutation of the names takes the name that a place has in the one form to the name that it has in
the other (`exists_perm_of_nodup`). It renames the binary form with the names of the one into the
binary form with the names of the other (`Grammar.Renames.binaryFormBy`), and if the places have the
same names, the order does not matter (`Grammar.SameUpToOrder.binaryFormBy`).

The result is that no stage depends on the order of declaration, with the exception of the names
that binarization chooses (`Grammar.SameUpToOrder.apply`).
-/

namespace ContextFree

/-- **Two ways of naming differ by a permutation**, which leaves alone what is not a name in either
of them. -/
theorem exists_perm_of_nodup {α β : Type} [DecidableEq β] {f g : α → β} {xs : List α}
    (hf : (xs.map f).Nodup) (hg : (xs.map g).Nodup) :
    ∃ σ : Equiv.Perm β, (∀ x ∈ xs, σ (f x) = g x) ∧
      ∀ y, y ∉ xs.map f → y ∉ xs.map g → σ y = y := by
  induction xs with
  | nil => exact ⟨Equiv.refl β, nofun, fun _ _ _ => rfl⟩
  | cons x xs ih =>
    rw [List.map_cons, List.nodup_cons] at hf hg
    obtain ⟨σ, moves, fixes⟩ := ih hf.2 hg.2
    -- after the permutation for the others, one exchange puts `x` right and moves none of them
    refine ⟨σ.trans (Equiv.swap (σ (f x)) (g x)), fun y mem => ?_, fun y notF notG => ?_⟩
    · rcases List.mem_cons.mp mem with rfl | mem
      · exact Equiv.swap_apply_left _ _
      · have here : g y ≠ g x := fun same => hg.1 (same ▸ List.mem_map_of_mem mem)
        have there : g y ≠ σ (f x) := by
          rw [← moves y mem]
          intro same
          exact hf.1 (σ.injective same ▸ List.mem_map_of_mem mem)
        rw [Equiv.trans_apply, moves y mem, Equiv.swap_apply_of_ne_of_ne there here]
    · rw [List.map_cons, List.mem_cons, not_or] at notF notG
      have same := fixes y notF.2 notG.2
      have there : y ≠ σ (f x) := fun eq => notF.1 (σ.injective (same.trans eq))
      rw [Equiv.trans_apply, same, Equiv.swap_apply_of_ne_of_ne there notG.1]

/-! ### Renaming -/

/-- A symbol with another name, if it is a non-terminal. -/
def Symbol.rename (σ : Name → Name) : Symbol → Symbol
  | .terminal a => .terminal a
  | .nonterminal A => .nonterminal (σ A)

def Body.rename (σ : Name → Name) (body : Body) : Body := body.map (Symbol.rename σ)

def Rule.rename (σ : Name → Name) (rule : Rule Body) : Rule Body :=
  ⟨σ rule.lhs, rule.bodies.map (Body.rename σ)⟩

/-- The grammar with other names for its non-terminals. -/
def Grammar.rename (σ : Name → Name) (G : Grammar) : Grammar where
  start := σ G.start
  nonterminals := G.nonterminals.map σ
  terminals := G.terminals
  rules := G.rules.map (Rule.rename σ)

namespace Body

variable {σ : Name → Name} {names others : Place → Name} {body : Body} {A : Name} {i : Nat}

theorem rename_frontPair (name : Nat → Name) (i : Nat) :
    (frontPair name body i).rename σ = frontPair (fun j => σ (name j)) (body.rename σ) i := by
  cases i with
  | zero => exact List.map_take
  | succ i =>
    rw [frontPair, frontPair, rename, rename, List.map_cons, List.map_take, List.map_drop]
    rfl

theorem rename_isolateBy (fixes : ∀ A, .nonterminal A ∈ body → σ A = A)
    (terminals : ∀ a ∈ body.crowdedTerminals, σ (names (.terminal a)) = others (.terminal a)) :
    (isolateBy names body).rename σ = isolateBy others body := by
  unfold isolateBy rename
  split
  · -- a body that is too short to be isolated has no fresh names
    refine (List.map_congr_left fun s hs => ?_).trans (List.map_id body)
    cases s with
    | terminal a => rfl
    | nonterminal A => exact congrArg Symbol.nonterminal (fixes A hs)
  · next long =>
    rw [List.map_map]
    refine List.map_congr_left fun s hs => ?_
    cases s with
    | terminal a =>
      have mem := mem_crowdedTerminals_iff.mpr ⟨Nat.le_of_not_lt long, hs⟩
      exact congrArg Symbol.nonterminal (terminals a mem)
    | nonterminal A => exact congrArg Symbol.nonterminal (fixes A hs)

theorem rename_pairAt (fixes : ∀ A, .nonterminal A ∈ body → σ A = A)
    (terminals : ∀ a ∈ body.crowdedTerminals, σ (names (.terminal a)) = others (.terminal a))
    (pairs : ∀ j < i, σ (names (.pair A body j)) = others (.pair A body j)) :
    (pairAt names A body i).rename σ = pairAt others A body i := by
  rw [pairAt, pairAt, rename_frontPair, rename_isolateBy fixes terminals]
  exact frontPair_congr pairs

end Body

namespace Grammar

open NameSupply (answer)

variable {G H : Grammar} {σ : Name → Name} {names others : Place → Name} {A : Name} {body : Body}
  {k : Nat}

/-- The renaming takes one way of naming the places of a grammar to another, and leaves the
non-terminals of the grammar alone. -/
structure Renames (G : Grammar) (σ : Name → Name) (names others : Place → Name) : Prop where
  fixes : ∀ A ∈ G.nonterminals, σ A = A
  moves : ∀ place ∈ G.places, σ (names place) = others place

namespace Renames

variable (wf : G.WellFormed) (h : G.Renames σ names others)
include wf h

theorem pairAt (mem : body ∈ G.bodies A) {i : Nat} (hi : i ≤ body.length - 2) :
    (body.pairAt names A i).rename σ = body.pairAt others A i := by
  refine Body.rename_pairAt (fun B hB => ?_) (fun a ha => ?_) fun j hj => ?_
  · exact h.fixes B (wf.declares_of_mem_bodies mem hB)
  · have crowded : G.IsCrowded a :=
      wf.isCrowded_iff.mpr ⟨A, body, mem, Body.mem_crowdedTerminals_iff.mp ha⟩
    exact h.moves _ (mem_places_terminal_iff.mpr (mem_crowdedTerminals_iff.mpr crowded))
  · exact h.moves _ (wf.mem_places_pair_iff.mpr ⟨mem, Nat.lt_of_lt_of_le hj hi⟩)

theorem place_body {place : Place} (mem : place ∈ G.places) :
    (place.body names).rename σ = place.body others := by
  cases place with
  | terminal a => rfl
  | pair A body i =>
    obtain ⟨mem, hi⟩ := wf.mem_places_pair_iff.mp mem
    exact h.pairAt wf mem (Nat.le_of_lt hi)

/-- **Renaming renames the places.** -/
theorem binaryFormBy : (G.binaryFormBy names).rename σ = G.binaryFormBy others := by
  have start : σ (G.binaryFormBy names).start = G.start := h.fixes _ wf.start_mem
  have old : G.nonterminals.map σ = G.nonterminals :=
    (List.map_congr_left h.fixes).trans (List.map_id _)
  have fresh : (G.places.map names).map σ = G.places.map others := by
    rw [List.map_map]
    exact List.map_congr_left h.moves
  -- what is left of an old body is the pair in front after the last replacement
  have oldRules : ∀ rule ∈ G.rules,
      Rule.rename σ ⟨rule.lhs, rule.bodies.map (Body.left names rule.lhs)⟩
        = ⟨rule.lhs, rule.bodies.map (Body.left others rule.lhs)⟩ := by
    intro rule hrule
    have lhs : rule.lhs ∈ G.nonterminals := wf.leftSides_eq ▸ List.mem_map_of_mem hrule
    rw [Rule.rename, h.fixes _ lhs, List.map_map]
    refine congrArg (Rule.mk _) (List.map_congr_left fun body hbody => ?_)
    exact h.pairAt wf (wf.mem_bodies hrule hbody) (Nat.le_refl _)
  have freshRules : ∀ place ∈ G.places,
      Rule.rename σ ⟨names place, [place.body names]⟩ = ⟨others place, [place.body others]⟩ := by
    intro place mem
    rw [Rule.rename, h.moves place mem, List.map_singleton, h.place_body wf mem]
  rw [rename, start]
  rw [Grammar.binaryFormBy, Grammar.binaryFormBy, List.map_append, List.map_append, old, fresh,
    List.map_map, List.map_map]
  exact congrArg (Grammar.mk _ _ _)
    (congrArg₂ _ (List.map_congr_left oldRules) (List.map_congr_left freshRules))

end Renames

/-! ### The same up to fresh names -/

/-- Two grammars that have been made from `G`, or from `G` in another order: they have the same
non-terminals, and a permutation of those that are fresh makes them the same up to order. -/
def SameUpToFresh (G G' H' : Grammar) : Prop :=
  SameMembers G'.nonterminals H'.nonterminals ∧
    ∃ σ : Equiv.Perm Name, (∀ A, A ∈ G.nonterminals ∨ A ∉ G'.nonterminals → σ A = A) ∧
      (G'.rename σ).SameUpToOrder H'

namespace SameUpToOrder

theorem isTaken_iff (same : G.SameUpToOrder H) {m : Nat} : G.IsTaken m ↔ H.IsTaken m :=
  or_congr same.mem_nonterminals_iff same.mem_terminals_iff

variable (wfG : G.WellFormed) (wfH : H.WellFormed)
include wfG wfH

theorem nonterminals_perm (same : G.SameUpToOrder H) : G.nonterminals.Perm H.nonterminals :=
  (List.perm_ext_iff_of_nodup wfG.nonterminals_nodup wfH.nonterminals_nodup).mpr fun _ =>
    same.mem_nonterminals_iff

theorem mem_places_iff (same : G.SameUpToOrder H) {place : Place} :
    place ∈ G.places ↔ place ∈ H.places := by
  cases place with
  | terminal a =>
    rw [mem_places_terminal_iff, mem_places_terminal_iff, mem_crowdedTerminals_iff,
      mem_crowdedTerminals_iff, wfG.isCrowded_iff, wfH.isCrowded_iff]
    exact exists_congr fun A => exists_congr fun body => and_congr_left fun _ => same.mem_bodies_iff
  | pair A body i =>
    rw [wfG.mem_places_pair_iff, wfH.mem_places_pair_iff]
    exact and_congr_left fun _ => same.mem_bodies_iff

/-- **The same places need names**, perhaps in another order. -/
theorem places_perm (same : G.SameUpToOrder H) : G.places.Perm H.places :=
  (List.perm_ext_iff_of_nodup wfG.nodup_places wfH.nodup_places).mpr fun _ =>
    same.mem_places_iff wfG wfH

theorem length_blocks_eq (same : G.SameUpToOrder H) : G.blocks.length = H.blocks.length := by
  rw [← wfG.length_places, ← wfH.length_places]
  exact (same.places_perm wfG wfH).length_eq

/-- If the places have the same names, the order does not matter to the binary form. -/
theorem binaryFormBy (same : G.SameUpToOrder H) (names : Place → Name)
    (distinct : (H.binaryFormBy names).leftSides.Nodup) :
    (G.binaryFormBy names).SameUpToOrder (H.binaryFormBy names) := by
  have nonterminals : (G.nonterminals ++ G.places.map names).Perm
      (H.nonterminals ++ H.places.map names) :=
    (same.nonterminals_perm wfG wfH).append ((same.places_perm wfG wfH).map names)
  have leftSides : (G.binaryFormBy names).leftSides.Perm (H.binaryFormBy names).leftSides := by
    rw [leftSides_binaryFormBy, leftSides_binaryFormBy, wfG.leftSides_eq, wfH.leftSides_eq]
    exact nonterminals
  refine sameUpToOrder_iff.mpr ⟨same.start_eq, fun A => nonterminals.mem_iff,
    fun a => same.mem_terminals_iff, fun A => leftSides.mem_iff, fun A body => ?_⟩
  rw [mem_bodies_binaryFormBy_iff wfG.leftSides_nodup (leftSides.nodup_iff.mpr distinct),
    mem_bodies_binaryFormBy_iff wfH.leftSides_nodup distinct]
  exact or_congr (exists_congr fun old => and_congr_left fun _ => same.mem_bodies_iff)
    (exists_congr fun place => and_congr_left fun _ => same.mem_places_iff wfG wfH)

/-- **Binary forms are the same up to fresh names.** -/
theorem binaryForm (same : G.SameUpToOrder H) (roomG : G.HasRoom k) (roomH : H.HasRoom k) :
    G.SameUpToFresh (G.binaryForm k) (H.binaryForm k) := by
  have blocks := same.length_blocks_eq wfG wfH
  have names : G.places.map (G.naming k) = (List.range' k G.blocks.length).map Name.numbered := by
    rw [← wfG.length_places]
    exact wfG.namesFrom_naming k
  -- the names that the same places have in the other binary form
  have others : (G.places.map (H.naming k)).Perm
      ((List.range' k G.blocks.length).map Name.numbered) := by
    rw [blocks, ← wfH.length_places, ← wfH.namesFrom_naming k]
    exact (same.places_perm wfG wfH).map _
  obtain ⟨σ, moves, fixes⟩ := exists_perm_of_nodup (names ▸ nodup_numbered _ _)
    (others.nodup_iff.mpr (nodup_numbered _ _))
  -- a name that is moved is fresh: it was not declared, and it is declared now
  have alone : ∀ A, A ∈ G.nonterminals ∨ A ∉ (G.binaryForm k).nonterminals → σ A = A := by
    intro A old
    have notFresh : ¬ G.IsFresh k A := by
      intro fresh
      rcases old with old | new
      · exact (roomG A fresh).1 old
      · rw [nonterminals_binaryForm] at new
        exact new (List.mem_append_right _ (isFresh_iff_mem.mp fresh))
    rw [isFresh_iff_mem] at notFresh
    exact fixes A (names ▸ notFresh) (mt others.mem_iff.mp notFresh)
  refine ⟨?_, σ, alone, ?_⟩
  · rw [nonterminals_binaryForm, nonterminals_binaryForm, blocks]
    exact sameMembers_iff.mpr fun A => ((same.nonterminals_perm wfG wfH).append_right _).mem_iff
  · -- renamed, the one has the names of the other, and then the order does not matter
    have renames : G.Renames σ (G.naming k) (H.naming k) :=
      ⟨fun A mem => alone A (.inl mem), moves⟩
    have distinct : (H.binaryFormBy (H.naming k)).leftSides.Nodup :=
      wfH.binaryForm_eq k ▸ leftSides_binaryForm_nodup wfH roomH
    rw [wfG.binaryForm_eq, wfH.binaryForm_eq, renames.binaryFormBy wfG]
    exact same.binaryFormBy wfG wfH _ distinct

/-- **Binarizations go alike**: the supply ends up at the same number, and either both fail for the
same reason or both succeed, with grammars that are the same up to fresh names. -/
theorem binarizeWith (same : G.SameUpToOrder H) (supply : NameSupply) :
    (G.binarizeWith supply).1 = (H.binarizeWith supply).1 ∧
      ((∃ failure, (G.binarizeWith supply).2.outcome = .error failure ∧
          (H.binarizeWith supply).2.outcome = .error failure) ∨
        ∃ G' H', (G.binarizeWith supply).2.outcome = .ok G' ∧
          (H.binarizeWith supply).2.outcome = .ok H' ∧ G.SameUpToFresh G' H') := by
  -- both look at the numbers from `k` on
  obtain ⟨k, hk⟩ : ∃ k, max supply.next G.nonterminals.length = k := ⟨_, rfl⟩
  have hkH : max supply.next H.nonterminals.length = k := by
    rw [← (same.nonterminals_perm wfG wfH).length_eq, hk]
  have length : (G.freshBodies k).length = (H.freshBodies k).length := by
    rw [length_freshBodies, length_freshBodies, same.length_blocks_eq wfG wfH]
  have introduced : answer (NameSupply.introduce G ⟨k⟩ (G.freshBodies k))
      = answer (NameSupply.introduce H ⟨k⟩ (H.freshBodies k)) :=
    NameSupply.answer_introduce_congr (fun _ => same.isTaken_iff) length
  obtain ⟨supplyG, outcomeG⟩ := Prod.mk.inj (answer_binarizeWith hk introduced)
  obtain ⟨supplyH, outcomeH⟩ := Prod.mk.inj (answer_binarizeWith hkH rfl)
  refine ⟨supplyG.trans supplyH.symm, ?_⟩
  cases outcome : (NameSupply.introduce H ⟨k⟩ (H.freshBodies k)).2.outcome with
  | error failure =>
    rw [outcome] at outcomeG outcomeH
    exact .inl ⟨failure, outcomeG, outcomeH⟩
  | ok =>
    rw [outcome] at outcomeG outcomeH
    have roomG : G.HasRoom k := hk ▸ (binarizeWith_eq_ok outcomeG).1
    have roomH : H.HasRoom k := hkH ▸ (binarizeWith_eq_ok outcomeH).1
    exact .inr ⟨_, _, outcomeG, outcomeH, same.binaryForm wfG wfH roomG roomH⟩

/-- **The order of declaration does not matter.** The other stages lead from grammars that are the
same up to order to grammars that are the same up to order. Binarization with the same supply leaves
the supply at the same number; it fails for the same reason, or leads to grammars that are the same
up to order and to which fresh name stands for what. -/
theorem stages_alike (same : G.SameUpToOrder H) :
    (∀ stage ≠ Stage.binarize, ∀ supplyG supplyH, ∃ G' H',
      (stage.apply supplyG G).2.outcome = .ok G' ∧
        (stage.apply supplyH H).2.outcome = .ok H' ∧ G'.SameUpToOrder H') ∧
      ∀ supply, (G.binarizeWith supply).1 = (H.binarizeWith supply).1 ∧
        ((∃ failure, (G.binarizeWith supply).2.outcome = .error failure ∧
            (H.binarizeWith supply).2.outcome = .error failure) ∨
          ∃ G' H', (G.binarizeWith supply).2.outcome = .ok G' ∧
            (H.binarizeWith supply).2.outcome = .ok H' ∧ G.SameUpToFresh G' H') := by
  refine ⟨fun stage ne supplyG supplyH => ?_, fun supply => same.binarizeWith wfG wfH supply⟩
  obtain ⟨G', okG⟩ := wfG.exists_outcome_eq_ok ne supplyG
  obtain ⟨H', okH⟩ := wfH.exists_outcome_eq_ok ne supplyH
  have leadsG := wfG.leads_of_apply okG
  have leadsH := wfH.leads_of_apply okH
  exact ⟨G', H', okG, okH, same.leads wfG wfH ne leadsG leadsH⟩

end SameUpToOrder

/-- The grammar `S → a A | b`, `A → b S a`. -/
def alternating : Grammar where
  start := .ofCons 'S' []
  nonterminals := [.ofCons 'S' [], .ofCons 'A' []]
  terminals := [.ofCons 'a' [], .ofCons 'b' []]
  rules := [
    ⟨.ofCons 'S' [],
      [[.terminal (.ofCons 'a' []), .nonterminal (.ofCons 'A' [])], [.terminal (.ofCons 'b' [])]]⟩,
    ⟨.ofCons 'A' [],
      [[.terminal (.ofCons 'b' []), .nonterminal (.ofCons 'S' []), .terminal (.ofCons 'a' [])]]⟩]

/-- The grammar `A → b S a`, `S → b | a A`, with the start symbol `S`. -/
def alternatingReversed : Grammar where
  start := .ofCons 'S' []
  nonterminals := [.ofCons 'A' [], .ofCons 'S' []]
  terminals := [.ofCons 'b' [], .ofCons 'a' []]
  rules := [
    ⟨.ofCons 'A' [],
      [[.terminal (.ofCons 'b' []), .nonterminal (.ofCons 'S' []), .terminal (.ofCons 'a' [])]]⟩,
    ⟨.ofCons 'S' [],
      [[.terminal (.ofCons 'b' [])], [.terminal (.ofCons 'a' []), .nonterminal (.ofCons 'A' [])]]⟩]

/-- Reversing all lists of the grammar has the second and the third number change places: each of
them goes to one of the two terminals. The binary forms are not the same before renaming. -/
theorem alternating_stages_alike :
    alternating.WellFormed ∧ alternatingReversed.WellFormed ∧
      alternating.SameUpToOrder alternatingReversed ∧
      (alternating.binarizeWith .full).2.outcome = .ok (alternating.binaryForm 2) ∧
      (alternatingReversed.binarizeWith .full).2.outcome
        = .ok (alternatingReversed.binaryForm 2) ∧
      ¬ (alternating.binaryForm 2).SameUpToOrder (alternatingReversed.binaryForm 2) ∧
      alternating.SameUpToFresh (alternating.binaryForm 2) (alternatingReversed.binaryForm 2) := by
  have wf : alternating.WellFormed := wellFormed_iff_ofRows?_eq_ok.mpr rfl
  have wfReversed : alternatingReversed.WellFormed := wellFormed_iff_ofRows?_eq_ok.mpr rfl
  have same : alternating.SameUpToOrder alternatingReversed := by decide +kernel
  have ok : (alternating.binarizeWith .full).2.outcome = .ok (alternating.binaryForm 2) := by
    decide +kernel
  have okReversed : (alternatingReversed.binarizeWith .full).2.outcome
      = .ok (alternatingReversed.binaryForm 2) := by
    decide +kernel
  refine ⟨wf, wfReversed, same, ok, okReversed, by decide +kernel, ?_⟩
  obtain ⟨_, ⟨failure, error, _⟩ | ⟨G', H', okG, okH, fresh⟩⟩ :=
    (same.stages_alike wf wfReversed).2 .full
  · cases ok.symm.trans error
  · cases ok.symm.trans okG
    cases okReversed.symm.trans okH
    exact fresh

end Grammar

end ContextFree
