import ContextFree.Proofs.Unchanged

/-!
# Fruitful grammars

Pruning what is not productive makes a grammar **fruitful**: every non-terminal generates some
word, the start symbol perhaps excepted, and every body derives one. A start symbol that generates
nothing then has no bodies and is mentioned in none.

Fruitfulness outlasts what may come after (`Grammar.IsFruitful.restrict_accessible`,
`Grammar.IsFruitful.binaryForm`). What is accessible generates the words that it generated, and
what a fresh name stands for is a part of a body that derives a word. In a fruitful grammar there is
nothing to prune but what is not accessible (`Grammar.IsFruitful.productivePart_eq_self`).
-/

namespace ContextFree

namespace Grammar

variable {G : Grammar} {k : Nat}

/-- Everything derives some word, except perhaps for the start symbol. -/
structure IsFruitful (G : Grammar) : Prop where
  /-- Every non-terminal but the start symbol generates some word. -/
  generates : ∀ A ∈ G.nonterminals, A ≠ G.start → ∃ w, G.Generates A w
  /-- Every body derives some word, also those of the start symbol. -/
  derives : ∀ A, ∀ body ∈ G.bodies A, ∃ w, G.Derives body w

/-- What a body that derives a word mentions generates some word. -/
theorem Derives.exists_generates {body : Body} {w : List Name} (h : G.Derives body w) {B : Name}
    (mem : .nonterminal B ∈ body) : ∃ u, G.Generates B u :=
  (derives_iff_reads.mp h).exists_of_mem mem

/-- **Pruning what is not productive makes a grammar fruitful.** -/
theorem WellFormed.isFruitful_productivePart (wf : G.WellFormed) : G.productivePart.IsFruitful := by
  have productive : ∀ A ∈ G.productives, ∃ w, G.productivePart.Generates A w := by
    intro A mem
    obtain ⟨w, h⟩ := wf.mem_productives_iff.mp mem
    exact ⟨w, wf.generates_productivePart_iff.mpr h⟩
  refine ⟨fun A mem ne => ?_, fun A body mem => ?_⟩
  · -- what is kept is productive or the start symbol
    rcases outlasts_iff.mp (List.mem_filter.mp mem).2 with kept | start
    · exact productive A kept
    · exact absurd start ne
  · -- a body that is kept mentions what is productive
    exact exists_derives productive (mem_bodies_productivePart_iff.mp mem).2.2

namespace IsFruitful

variable (fruitful : G.IsFruitful) (wf : G.WellFormed)
include fruitful wf

/-- **In a fruitful grammar everything is productive.** -/
theorem productivePart_eq_self : G.productivePart = G := by
  refine wf.productivePart_eq_self (fun A mem => ?_) fun A body mem => ?_
  · by_cases start : A = G.start
    · exact outlasts_iff.mpr (.inr start)
    · have productive : A ∈ G.productives :=
        wf.mem_productives_iff.mpr (fruitful.generates A mem start)
      exact outlasts_iff.mpr (.inl productive)
  · obtain ⟨w, h⟩ := fruitful.derives A body mem
    refine Body.isProductive_iff.mpr fun B hB => ?_
    exact wf.mem_productives_iff.mpr (h.exists_generates hB)

/-- Pruning what is not accessible keeps a grammar fruitful. -/
theorem restrict_accessible : (G.restrict G.accessible.contains).IsFruitful := by
  refine ⟨fun A mem ne => ?_, fun A body mem => ?_⟩
  · obtain ⟨old, kept⟩ := List.mem_filter.mp mem
    obtain ⟨w, h⟩ := fruitful.generates A old ne
    exact ⟨w, (wf.generates_restrict_accessible_iff (List.contains_iff_mem.mp kept)).mpr h⟩
  · rw [bodies_restrict] at mem
    split at mem
    · next kept =>
      -- what the body of an accessible non-terminal mentions is accessible
      have accessible := List.contains_iff_mem.mp kept
      obtain ⟨w, h⟩ := fruitful.derives A body mem
      refine ⟨w, h.mono fun B hB u hu => ?_⟩
      have reached := wf.mem_accessible_of_mem_bodies accessible mem hB
      exact (wf.generates_restrict_accessible_iff reached).mpr hu
    · cases mem

/-- A block of a fruitful grammar derives some word. -/
theorem exists_derives_of_mem_blocks {block : Body} (mem : block ∈ G.blocks) :
    ∃ w, G.Derives block w := by
  rcases mem_blocks_iff.mp mem with ⟨a, _, rfl⟩ | ⟨rule, hrule, body, hbody, mem⟩
  · exact ⟨[a], .terminal .nil⟩
  · -- a word of the body begins with a word of the block
    obtain ⟨rest, whole⟩ := (Body.mem_blocks_iff.mp mem).1
    obtain ⟨w, h⟩ := fruitful.derives rule.lhs body (wf.mem_bodies hrule hbody)
    rw [← whole] at h
    obtain ⟨u, v, _, hu, _⟩ := derives_append_iff.mp h
    exact ⟨u, hu⟩

/-- The binary form of a fruitful grammar is fruitful. -/
theorem binaryForm (room : G.HasRoom k) : (G.binaryForm k).IsFruitful := by
  -- what a fresh name stands for derives a word
  have fresh : ∀ Z, G.IsFresh k Z → ∃ w, (G.binaryForm k).Generates Z w := by
    rintro Z ⟨i, hi, rfl⟩
    obtain ⟨w, h⟩ := fruitful.exists_derives_of_mem_blocks wf (List.getElem_mem hi)
    refine ⟨w, (generates_binaryForm_iff wf room).mpr ?_⟩
    rw [unfoldsFrom_blocks G k i _ (List.getElem?_eq_getElem hi)]
    exact h
  refine ⟨fun A mem ne => ?_, fun A body mem => ?_⟩
  · rw [nonterminals_binaryForm, ← wf.leftSides_eq, ← leftSides_binaryForm,
      mem_leftSides_binaryForm_iff, wf.leftSides_eq] at mem
    rcases mem with old | new
    · obtain ⟨w, h⟩ := fruitful.generates A old ne
      exact ⟨w, (generates_binaryForm_iff_of_mem wf room old).mpr h⟩
    · exact fresh A new
  · -- a body derives what it unfolds to, which is a block or a body of the grammar
    have unfolding : ∃ w, G.Derives (body.flatMap (G.unfold k)) w := by
      by_cases new : G.IsFresh k A
      · obtain ⟨i, hi, rfl⟩ := new
        have found := List.getElem?_eq_getElem hi
        obtain ⟨own, _, bodies, unfolds⟩ := exists_bodies_binaryForm_eq wf room found
        rw [bodies, List.mem_singleton] at mem
        rw [mem, unfolds]
        exact fruitful.exists_derives_of_mem_blocks wf (List.getElem_mem hi)
      · refine fruitful.derives A _ ?_
        rw [← map_unfold_bodies_binaryForm wf room new]
        exact List.mem_map_of_mem mem
    obtain ⟨w, h⟩ := unfolding
    refine ⟨w, derives_iff_reads.mpr ?_⟩
    have reads := (reads_unfold_iff fun _ => rfl).mpr h
    exact reads.mono fun B _ u hu => (generates_binaryForm_iff wf room).mpr hu

end IsFruitful

end Grammar

end ContextFree
