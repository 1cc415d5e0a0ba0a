import ContextFree.Proofs.Interpretation
import ContextFree.Proofs.Traversal
import ContextFree.Proofs.WellFormed

/-!
# The binary form is a conservative extension

A fresh non-terminal of the binary form stands for a **block** of symbols of the grammar: for a
terminal, or for a beginning of a long body (`Grammar.blocks`). Putting blocks in the place of
fresh names (`Grammar.unfold`) takes the bodies of the binary form back to those of the grammar,
and the one body of a fresh non-terminal to its block. This is all that is needed of isolating and
peeling. What a body of the binary form derives is then what its unfolding derives in the grammar
(`Grammar.generates_binaryForm_iff`):

* *No more*, because the words of the unfoldings are closed under the binary form.
* *No less*, because in the binary form a fresh name generates what its block derives there
  (`Grammar.generates_of_derives_unfold`). This is by induction on the length of the block: the
  two symbols of the body of a fresh name unfold to shorter blocks.

All of this asks that the names that are taken are not declared (`Grammar.HasRoom`), which a supply
checks before it hands them out (`Grammar.binarizeWith_eq_ok`).
-/

namespace ContextFree

namespace Grammar

variable {G : Grammar} {k : Nat} {A : Name} {body : Body} {w : List Name}

/-! ### Blocks and unfolding -/

/-- The blocks that the fresh non-terminals of the binary form stand for, in the order of their
numbers: the isolated terminals, and then the blocks of the bodies. -/
def blocks (G : Grammar) : List Body :=
  G.crowdedTerminals.map (fun a => [.terminal a]) ++
    G.rules.flatMap fun rule => rule.bodies.flatMap Body.blocks

/-- A symbol of the binary form as symbols of the grammar: a fresh name is replaced by its block. -/
def unfold (G : Grammar) (k : Nat) : Symbol → Body
  | .terminal a => [.terminal a]
  | .nonterminal A =>
    match (G.blocks.zipIdx k).find? (fun (_, n) => .numbered n = A) with
    | some (block, _) => block
    | none => [.nonterminal A]

/-- The name is one of those that the binary form takes. -/
def IsFresh (G : Grammar) (k : Nat) (A : Name) : Prop :=
  ∃ i < G.blocks.length, A = .numbered (k + i)

/-- The names that the binary form takes are not declared. -/
def HasRoom (G : Grammar) (k : Nat) : Prop :=
  ∀ A, G.IsFresh k A → A ∉ G.nonterminals ∧ A ∉ G.terminals

/-- The numbered names from `n` on, one for each member of a list. -/
theorem map_numbered_zipIdx {α : Type} (xs : List α) (n : Nat) :
    (xs.zipIdx n).map (fun p => Name.numbered p.2)
      = (List.range' n xs.length).map Name.numbered := by
  rw [← List.zipIdx_map_snd n xs, List.map_map]
  rfl

theorem nodup_numbered (n m : Nat) : ((List.range' n m).map Name.numbered).Nodup :=
  (List.nodup_range' 1).map fun _ _ h => Name.numbered_inj.mp h

/-- **Fresh names unfold to their blocks.** -/
theorem unfoldsFrom_blocks (G : Grammar) (k : Nat) : UnfoldsFrom (G.unfold k) k G.blocks := by
  intro i block found
  have mem : (block, k + i) ∈ G.blocks.zipIdx k := by
    exact List.mk_add_mem_zipIdx_iff_getElem?.mpr found
  have distinct : ((G.blocks.zipIdx k).map fun p => Name.numbered p.2).Nodup := by
    rw [map_numbered_zipIdx]
    exact nodup_numbered _ _
  have lookup := find?_key_eq distinct mem
  rw [unfold]
  simp only [lookup]

theorem unfold_of_not_isFresh (h : ¬ G.IsFresh k A) :
    G.unfold k (.nonterminal A) = [.nonterminal A] := by
  have none : (G.blocks.zipIdx k).find? (fun p => .numbered p.2 = A) = none := by
    refine @find?_key_eq_none _ _ _ (fun p : Body × Nat => Name.numbered p.2) _ _ ?_
    rw [map_numbered_zipIdx, List.mem_map]
    rintro ⟨n, hn, rfl⟩
    rw [List.mem_range'_1] at hn
    exact h ⟨n - k, by omega, by rw [Nat.add_sub_cancel' hn.1]⟩
  rw [unfold]
  simp only [none]

theorem unfold_of_mem_nonterminals (room : G.HasRoom k) (mem : A ∈ G.nonterminals) :
    G.unfold k (.nonterminal A) = [.nonterminal A] :=
  unfold_of_not_isFresh fun fresh => (room A fresh).1 mem

theorem mem_blocks_iff {block : Body} :
    block ∈ G.blocks ↔ (∃ a ∈ G.crowdedTerminals, block = [.terminal a]) ∨
      ∃ rule ∈ G.rules, ∃ body ∈ rule.bodies, block ∈ body.blocks := by
  rw [blocks, List.mem_append, List.mem_map, List.mem_flatMap]
  refine or_congr ?_ ?_
  · exact exists_congr fun a => and_congr_right fun _ => eq_comm
  · exact exists_congr fun rule => and_congr_right fun _ => List.mem_flatMap

theorem WellFormed.declares_of_mem_crowdedTerminals (wf : G.WellFormed) {a : Name}
    (mem : a ∈ G.crowdedTerminals) : G.Declares (.terminal a) := by
  rw [crowdedTerminals, List.mem_eraseDups, List.mem_flatMap] at mem
  obtain ⟨rule, hrule, mem⟩ := mem
  obtain ⟨body, hbody, mem⟩ := List.mem_flatMap.mp mem
  exact wf.declared rule hrule body hbody _ (Body.mem_crowdedTerminals_iff.mp mem).2

theorem ne_nil_of_mem_blocks {block : Body} (mem : block ∈ G.blocks) : block ≠ [] := by
  rintro rfl
  rcases mem_blocks_iff.mp mem with ⟨a, _, eq⟩ | ⟨rule, _, body, _, mem⟩
  · cases eq
  · have := (Body.mem_blocks_iff.mp mem).2.1
    simp at this

theorem unfold_ne_nil (s : Symbol) : G.unfold k s ≠ [] := by
  cases s with
  | terminal a => exact List.cons_ne_nil _ _
  | nonterminal A =>
    by_cases fresh : G.IsFresh k A
    · obtain ⟨i, hi, rfl⟩ := fresh
      rw [unfoldsFrom_blocks G k i _ (List.getElem?_eq_getElem hi)]
      exact ne_nil_of_mem_blocks (List.getElem_mem hi)
    · rw [unfold_of_not_isFresh fresh]
      exact List.cons_ne_nil _ _

/-! ### The rules of the binary form -/

theorem length_freshBodies : (G.freshBodies k).length = G.blocks.length := by
  rw [freshBodies, blocks, List.length_append, List.length_append, List.length_map, peeled]
  exact congrArg _ (length_peelRules_snd fun _ => Body.length_isolate)

theorem lhs_freshRules :
    (G.freshRules k).map (·.lhs) = (List.range' k G.blocks.length).map Name.numbered := by
  rw [freshRules, List.map_map, ← length_freshBodies, ← map_numbered_zipIdx]
  rfl

theorem nonterminals_binaryForm :
    (G.binaryForm k).nonterminals
      = G.nonterminals ++ (List.range' k G.blocks.length).map Name.numbered := by
  rw [← lhs_freshRules]
  rfl

theorem lhs_peeled : (G.peeled k).1.map (·.lhs) = G.leftSides := by
  rw [peeled, leftSides_peelRules, isolatedRules, List.map_map]
  rfl

/-- The left-hand sides of the binary form are those of the grammar and the fresh names. -/
theorem leftSides_binaryForm :
    (G.binaryForm k).leftSides
      = G.leftSides ++ (List.range' k G.blocks.length).map Name.numbered := by
  rw [leftSides, binaryForm, List.map_append, lhs_peeled, lhs_freshRules]

theorem isFresh_iff_mem :
    G.IsFresh k A ↔ A ∈ (List.range' k G.blocks.length).map Name.numbered := by
  rw [List.mem_map]
  refine ⟨?_, ?_⟩
  · rintro ⟨i, hi, rfl⟩
    exact ⟨k + i, List.mem_range'_1.mpr ⟨by omega, by omega⟩, rfl⟩
  · rintro ⟨n, hn, rfl⟩
    rw [List.mem_range'_1] at hn
    exact ⟨n - k, by omega, by rw [Nat.add_sub_cancel' hn.1]⟩

theorem mem_leftSides_binaryForm_iff :
    A ∈ (G.binaryForm k).leftSides ↔ A ∈ G.leftSides ∨ G.IsFresh k A := by
  rw [leftSides_binaryForm, List.mem_append, isFresh_iff_mem]

section Room

variable (wf : G.WellFormed) (room : G.HasRoom k)
include wf room

theorem leftSides_binaryForm_nodup : (G.binaryForm k).leftSides.Nodup := by
  rw [leftSides_binaryForm, List.nodup_append]
  refine ⟨wf.leftSides_nodup, nodup_numbered _ _, ?_⟩
  -- a fresh name that has a rule already is declared, and there is no room for it
  rintro A hA B hB rfl
  exact (room A (isFresh_iff_mem.mpr hB)).1 (wf.leftSides_eq ▸ hA)

/-- Isolating is taken back symbol by symbol, within each body. -/
theorem map_unfold_isolate {rule : Rule Body} (hrule : rule ∈ G.rules)
    (hbody : body ∈ rule.bodies) :
    (Body.isolate k G.crowdedTerminals body).map (G.unfold k) = body.map ([·]) := by
  have fresh := unfoldsFrom_blocks G k
  rw [blocks, unfoldsFrom_append_iff] at fresh
  refine Body.map_isolate (fun _ => rfl) (fun A hA => ?_) (fun a ha => ?_) fresh.1
  · exact unfold_of_mem_nonterminals room (wf.declared rule hrule body hbody _ hA)
  · rw [crowdedTerminals, List.mem_eraseDups]
    exact List.mem_flatMap.mpr ⟨rule, hrule, List.mem_flatMap.mpr ⟨body, hbody, ha⟩⟩

/-- **The binary form, taken back**: its rules unfold to those of the grammar, and the bodies of
its fresh non-terminals to the blocks. -/
theorem unfold_binaryForm :
    mapBodies (·.flatMap (G.unfold k)) (G.peeled k).1 = G.rules ∧
      (G.freshBodies k).map (·.flatMap (G.unfold k)) = G.blocks := by
  have fresh := unfoldsFrom_blocks G k
  rw [blocks, unfoldsFrom_append_iff, List.length_map] at fresh
  have isolated : ∀ rule ∈ G.rules, ∀ body ∈ rule.bodies,
      (Body.isolate k G.crowdedTerminals body).map (G.unfold k) = body.map ([·]) :=
    fun _ hrule _ hbody => map_unfold_isolate wf room hrule hbody
  obtain ⟨rules, pairs⟩ := mapBodies_peelRules isolated fresh.2
  refine ⟨rules, ?_⟩
  rw [freshBodies, blocks, List.map_append, List.map_map]
  exact congrArg _ pairs

/-- The bodies of a non-terminal that is not fresh unfold to its bodies in the grammar. -/
theorem map_unfold_bodies_binaryForm (h : ¬ G.IsFresh k A) :
    ((G.binaryForm k).bodies A).map (·.flatMap (G.unfold k)) = G.bodies A := by
  by_cases mem : A ∈ G.leftSides
  · -- a rule of the grammar is the unfolding of some rule of the binary form
    obtain ⟨rule, hrule, rfl⟩ := List.mem_map.mp mem
    have hrule' := hrule
    rw [← (unfold_binaryForm wf room).1] at hrule'
    obtain ⟨peeled, hpeeled, rfl⟩ := List.mem_map.mp hrule'
    have inForm : peeled ∈ (G.binaryForm k).rules := List.mem_append_left _ hpeeled
    rw [bodies_of_mem wf.leftSides_nodup hrule]
    exact congrArg _ (bodies_of_mem (leftSides_binaryForm_nodup wf room) inForm)
  · -- a name without a rule has none in the binary form either
    have notForm : A ∉ (G.binaryForm k).leftSides :=
      fun hA => (mem_leftSides_binaryForm_iff.mp hA).elim mem h
    rw [bodies_of_not_mem mem, bodies_of_not_mem notForm]
    rfl

/-- A fresh non-terminal has one body, which unfolds to its block. -/
theorem exists_bodies_binaryForm_eq {i : Nat} {block : Body} (found : G.blocks[i]? = some block) :
    ∃ body ∈ G.freshBodies k, (G.binaryForm k).bodies (.numbered (k + i)) = [body] ∧
      body.flatMap (G.unfold k) = block := by
  rw [← (unfold_binaryForm wf room).2, List.getElem?_map] at found
  obtain ⟨body, hbody, unfolds⟩ := Option.map_eq_some_iff.mp found
  have inForm : ⟨.numbered (k + i), [body]⟩ ∈ (G.binaryForm k).rules := by
    refine List.mem_append_right _ (List.mem_map.mpr ⟨(body, k + i), ?_, rfl⟩)
    exact List.mk_add_mem_zipIdx_iff_getElem?.mpr hbody
  exact ⟨body, List.mem_of_getElem? hbody,
    bodies_of_mem (leftSides_binaryForm_nodup wf room) inForm, unfolds⟩

end Room

/-- The body of a fresh non-terminal is a terminal or a pair of non-terminals. -/
theorem exists_of_mem_freshBodies (mem : body ∈ G.freshBodies k) :
    (∃ a, body = [.terminal a]) ∨ body.IsPair := by
  rcases List.mem_append.mp mem with mem | mem
  · -- the name of an isolated terminal
    obtain ⟨a, _, rfl⟩ := List.mem_map.mp mem
    exact .inl ⟨a, rfl⟩
  · -- a name that peeling a body of some rule brings in
    obtain ⟨isolated, hrule, l, mem⟩ := exists_of_mem_peelRules_snd mem
    obtain ⟨rule, _, rfl⟩ := List.mem_map.mp hrule
    obtain ⟨folded, hfolded, m, mem⟩ := Body.exists_of_mem_peelAll_snd mem
    obtain ⟨long, _, rfl⟩ := List.mem_map.mp hfolded
    by_cases short : long.length < 2
    · rw [Body.isolate_of_short short, Body.peel_of_short short] at mem
      cases mem
    · exact .inr ((Body.isPair_peel_isolate (by omega)).2 body mem)

/-- A body of the binary form is a pair of non-terminals, a terminal, or a body of the grammar that
has at most one symbol. -/
theorem cases_of_mem_binaryForm {rule : Rule Body} (hrule : rule ∈ (G.binaryForm k).rules)
    (hbody : body ∈ rule.bodies) :
    body.IsPair ∨ (∃ a, body = [.terminal a]) ∨
      body.length < 2 ∧ ∃ rule ∈ G.rules, body ∈ rule.bodies := by
  rcases List.mem_append.mp hrule with hrule | hrule
  · -- what isolating and peeling leave of a body
    obtain ⟨isolated, hisolated, l, rfl⟩ := exists_of_mem_peelRules_fst hrule
    obtain ⟨old, hold, rfl⟩ := List.mem_map.mp hisolated
    obtain ⟨folded, hfolded, m, rfl⟩ := Body.exists_of_mem_peelAll_fst hbody
    obtain ⟨long, hlong, rfl⟩ := List.mem_map.mp hfolded
    by_cases short : long.length < 2
    · rw [Body.isolate_of_short short, Body.peel_of_short short]
      exact .inr (.inr ⟨short, old, hold, hlong⟩)
    · exact .inl (Body.isPair_peel_isolate (by omega)).1
  · -- the one body of a fresh non-terminal
    obtain ⟨⟨own, n⟩, hown, rfl⟩ := List.mem_map.mp hrule
    rw [List.mem_singleton.mp hbody]
    rcases exists_of_mem_freshBodies (List.fst_mem_of_mem_zipIdx hown) with terminal | pair
    · exact .inr (.inl terminal)
    · exact .inl pair

/-- Bodies of at most one symbol stay as they are. -/
theorem filter_short_bodies_binaryForm (wf : G.WellFormed) (room : G.HasRoom k)
    (mem : A ∈ G.nonterminals) :
    ((G.binaryForm k).bodies A).filter (·.length < 2)
      = (G.bodies A).filter (·.length < 2) := by
  have source : A ∈ (G.peeled k).1.map (·.lhs) := by
    rw [lhs_peeled, wf.leftSides_eq]
    exact mem
  obtain ⟨peeled, hpeeled, rfl⟩ := List.mem_map.mp source
  have inForm : peeled ∈ (G.binaryForm k).rules := List.mem_append_left _ hpeeled
  rw [bodies_of_mem (leftSides_binaryForm_nodup wf room) inForm]
  obtain ⟨isolated, hisolated, l, rfl⟩ := exists_of_mem_peelRules_fst hpeeled
  obtain ⟨rule, hrule, rfl⟩ := List.mem_map.mp hisolated
  rw [bodies_of_mem wf.leftSides_nodup hrule]
  exact Body.filter_short_peelAll

/-! ### What the binary form generates -/

/-- To read a body with a word of its unfolding for each symbol is to derive its unfolding. -/
theorem reads_unfold_iff {unfold : Symbol → Body}
    (terminal : ∀ a, unfold (.terminal a) = [.terminal a]) :
    body.Reads (fun A => G.Derives (unfold (.nonterminal A))) w ↔
      G.Derives (body.flatMap unfold) w := by
  induction body generalizing w with
  | nil => exact derives_nil_iff.symm
  | cons s rest ih =>
    rw [List.flatMap_cons]
    cases s with
    | terminal a =>
      rw [terminal, List.singleton_append, derives_terminal_iff]
      exact exists_congr fun v => and_congr_right fun _ => ih
    | nonterminal A =>
      rw [derives_append_iff]
      exact exists_congr fun u => exists_congr fun v =>
        and_congr_right fun _ => and_congr_right fun _ => ih

section Room

variable (wf : G.WellFormed) (room : G.HasRoom k)
include wf room

/-- **A fresh name generates what its block derives in the binary form.** The induction is on the
length of the block, since both symbols of a pair unfold to something. -/
theorem generates_of_derives_unfold
    (h : (G.binaryForm k).Derives (G.unfold k (.nonterminal A)) w) :
    (G.binaryForm k).Generates A w := by
  induction length : (G.unfold k (.nonterminal A)).length using Nat.strongRecOn
    generalizing A w with
  | ind n ih =>
  by_cases fresh : G.IsFresh k A
  · obtain ⟨i, hi, rfl⟩ := fresh
    have found := List.getElem?_eq_getElem hi
    obtain ⟨body, mem, bodies, unfolds⟩ := exists_bodies_binaryForm_eq wf room found
    rw [unfoldsFrom_blocks G k i _ found, ← unfolds] at h length
    refine ⟨body, by rw [bodies]; exact List.mem_singleton_self body, ?_⟩
    rcases exists_of_mem_freshBodies mem with ⟨a, rfl⟩ | ⟨B, C, rfl⟩
    · exact h
    · -- the block is cut in two, and each symbol of the pair has one of the parts to itself
      rw [List.flatMap_cons, List.flatMap_cons, List.flatMap_nil, List.append_nil] at h length
      rw [List.length_append] at length
      have hB := List.length_pos_of_ne_nil (@unfold_ne_nil G k (.nonterminal B))
      have hC := List.length_pos_of_ne_nil (@unfold_ne_nil G k (.nonterminal C))
      obtain ⟨u, v, rfl, hu, hv⟩ := derives_append_iff.mp h
      refine derives_nonterminal_iff.mpr ⟨u, v, rfl, ih _ (by omega) hu rfl, ?_⟩
      exact derives_single_iff.mpr (ih _ (by omega) hv rfl)
  · rw [unfold_of_not_isFresh fresh] at h
    exact derives_single_iff.mp h

/-- What the unfolding of a body derives in the binary form, the body derives there. -/
theorem derives_of_derives_flatMap_unfold
    (h : (G.binaryForm k).Derives (body.flatMap (G.unfold k)) w) :
    (G.binaryForm k).Derives body w := by
  have reads := (reads_unfold_iff fun _ => rfl).mpr h
  exact derives_iff_reads.mpr (reads.mono fun _ _ _ => generates_of_derives_unfold wf room)

/-- **The binary form is a conservative extension**: a non-terminal of the binary form generates
what its unfolding derives in the grammar. -/
theorem generates_binaryForm_iff :
    (G.binaryForm k).Generates A w ↔ G.Derives (G.unfold k (.nonterminal A)) w := by
  refine ⟨fun h => ?_, fun h => ?_⟩
  · -- the binary form does not lead out of what unfoldings derive
    have closed : (G.binaryForm k).IsClosed fun B => G.Derives (G.unfold k (.nonterminal B)) := by
      intro B body mem u reads
      have derives := (reads_unfold_iff fun _ => rfl).mp reads
      by_cases fresh : G.IsFresh k B
      · obtain ⟨i, hi, rfl⟩ := fresh
        have found := List.getElem?_eq_getElem hi
        obtain ⟨own, _, bodies, unfolds⟩ := exists_bodies_binaryForm_eq wf room found
        rw [bodies, List.mem_singleton] at mem
        rw [unfoldsFrom_blocks G k i _ found, ← unfolds, ← mem]
        exact derives
      · rw [unfold_of_not_isFresh fresh]
        refine derives_single_iff.mpr ⟨_, ?_, derives⟩
        rw [← map_unfold_bodies_binaryForm wf room fresh]
        exact List.mem_map_of_mem mem
    exact closed.of_generates h
  · -- the grammar does not lead out of the words of the binary form
    have closed : G.IsClosed (G.binaryForm k).Generates := by
      intro B body mem u reads
      have old : ¬ G.IsFresh k B := fun fresh => (room B fresh).1 (wf.mem_of_mem_bodies mem)
      rw [← map_unfold_bodies_binaryForm wf room old] at mem
      obtain ⟨folded, hfolded, rfl⟩ := List.mem_map.mp mem
      refine ⟨folded, hfolded, derives_of_derives_flatMap_unfold wf room ?_⟩
      exact derives_iff_reads.mpr reads
    refine generates_of_derives_unfold wf room (h.mono fun B _ v hv => ?_)
    exact closed.of_generates hv

/-- A declared non-terminal generates the same words in the binary form. -/
theorem generates_binaryForm_iff_of_mem (mem : A ∈ G.nonterminals) :
    (G.binaryForm k).Generates A w ↔ G.Generates A w := by
  rw [generates_binaryForm_iff wf room, unfold_of_mem_nonterminals room mem, derives_single_iff]

theorem WellFormed.binaryForm : (G.binaryForm k).WellFormed := by
  have nonterminals : (G.binaryForm k).nonterminals = (G.binaryForm k).leftSides := by
    rw [leftSides_binaryForm, nonterminals_binaryForm, wf.leftSides_eq]
  have distinct := leftSides_binaryForm_nodup wf room
  have declares : ∀ A, A ∈ (G.binaryForm k).nonterminals ↔ A ∈ G.nonterminals ∨ G.IsFresh k A := by
    intro A
    rw [nonterminals, mem_leftSides_binaryForm_iff, wf.leftSides_eq]
  refine ⟨?_, ?_, nonterminals ▸ distinct, wf.terminals_nodup, nonterminals.symm, ?_, ?_⟩
  · exact (declares _).mpr (.inl wf.start_mem)
  · intro a ha hA
    rcases (declares a).mp hA with hA | fresh
    · exact wf.disjoint a ha hA
    · exact (room a fresh).2 ha
  · intro rule hrule body hbody s hs
    have mem : body ∈ (G.binaryForm k).bodies rule.lhs := by
      rw [bodies_of_mem distinct hrule]
      exact hbody
    -- every symbol that the unfolding of the body mentions is declared in the grammar
    have unfolded : ∀ t ∈ body.flatMap (G.unfold k), G.Declares t := by
      by_cases fresh : G.IsFresh k rule.lhs
      · obtain ⟨i, hi, eq⟩ := fresh
        have found := List.getElem?_eq_getElem hi
        obtain ⟨own, _, bodies, unfolds⟩ := exists_bodies_binaryForm_eq wf room found
        rw [eq, bodies, List.mem_singleton] at mem
        rw [mem, unfolds]
        intro t ht
        rcases mem_blocks_iff.mp (List.getElem_mem hi) with
          ⟨a, ha, eq⟩ | ⟨long, hlong, body, hbody, hblock⟩
        · rw [eq, List.mem_singleton] at ht
          rw [ht]
          exact wf.declares_of_mem_crowdedTerminals ha
        · have pre := (Body.mem_blocks_iff.mp hblock).1
          exact wf.declared long hlong body hbody t (pre.subset ht)
      · intro t ht
        refine wf.declares_of_mem_bodies (A := rule.lhs) ?_ ht
        rw [← map_unfold_bodies_binaryForm wf room fresh]
        exact List.mem_map_of_mem mem
    cases s with
    | terminal a =>
      exact unfolded (.terminal a) (List.mem_flatMap.mpr ⟨_, hs, List.mem_singleton_self _⟩)
    | nonterminal B =>
      refine (declares B).mpr ?_
      by_cases fresh : G.IsFresh k B
      · exact .inr fresh
      · refine .inl (unfolded (.nonterminal B) (List.mem_flatMap.mpr ⟨_, hs, ?_⟩))
        rw [unfold_of_not_isFresh fresh]
        exact List.mem_singleton_self _
  · intro rule hrule
    rw [← bodies_of_mem distinct hrule]
    by_cases fresh : G.IsFresh k rule.lhs
    · obtain ⟨i, hi, eq⟩ := fresh
      have found := List.getElem?_eq_getElem hi
      obtain ⟨own, _, bodies, _⟩ := exists_bodies_binaryForm_eq wf room found
      rw [eq, bodies]
      exact List.nodup_singleton own
    · -- bodies with different unfoldings are different
      refine List.Nodup.of_map (·.flatMap (G.unfold k)) ?_
      rw [map_unfold_bodies_binaryForm wf room fresh]
      exact wf.bodies_nodup_bodies _

end Room

/-! ### Binarization -/

/-- Binarization succeeds if the names are handed out, and fails as that fails. -/
theorem outcome_binarizeWith {supply : NameSupply}
    (hk : max supply.next G.nonterminals.length = k) :
    (G.binarizeWith supply).2.outcome
      = (NameSupply.introduce G ⟨k⟩ (G.freshBodies k)).2.outcome.map fun _ => G.binaryForm k := by
  subst hk
  rw [binarizeWith_eq]
  simp only [Report.outcome_bind, NameSupply.advance]
  -- the names are handed out first; what follows cannot fail
  cases (NameSupply.introduce G _ _).2.outcome <;> rfl

/-- Binarization succeeds only if there is room for the fresh names. -/
theorem binarizeWith_eq_ok {supply : NameSupply} {H : Grammar}
    (ok : (G.binarizeWith supply).2.outcome = .ok H) :
    G.HasRoom (max supply.next G.nonterminals.length) ∧
      H = G.binaryForm (max supply.next G.nonterminals.length) := by
  rw [outcome_binarizeWith rfl] at ok
  obtain ⟨_, introduced, rfl⟩ := exists_of_map_eq_ok ok
  refine ⟨?_, rfl⟩
  rintro A ⟨i, hi, rfl⟩
  rw [← length_freshBodies] at hi
  exact not_or.mp (NameSupply.isUsable_of_introduce_eq_ok introduced i hi).free

/-- What a fresh non-terminal may stand for: a terminal of a body of at least two symbols, or a
beginning of at least two symbols of a longer body. -/
def IsBlock (G : Grammar) (block : Body) : Prop :=
  (∃ a ∈ G.crowdedTerminals, block = [.terminal a]) ∨
    ∃ A, ∃ body ∈ G.bodies A, 2 < body.length ∧
      block <+: body ∧ 2 ≤ block.length ∧ block.length < body.length

/-- A grammar is extended by non-terminals that stand for blocks of its symbols, so that all bodies
have at most two symbols. The function says what the symbols of the extension unfold to. -/
structure ExtendsTo (G H : Grammar) (unfold : Symbol → Body) : Prop where
  /-- The symbols of the grammar stand for themselves. -/
  unfold_eq : (∀ a, unfold (.terminal a) = [.terminal a]) ∧
    ∀ A ∈ G.nonterminals, unfold (.nonterminal A) = [.nonterminal A]
  /-- The non-terminals of the grammar generate what they generated. -/
  generates_iff : ∀ A ∈ G.nonterminals, ∀ w, H.Generates A w ↔ G.Generates A w
  /-- Their bodies unfold to what they were, and those of at most one symbol have not changed. -/
  bodies_eq : ∀ A ∈ G.nonterminals, (H.bodies A).map (·.flatMap unfold) = G.bodies A ∧
    (H.bodies A).filter (·.length < 2) = (G.bodies A).filter (·.length < 2)
  /-- No body has more than two symbols, and a body of two symbols has two non-terminals. -/
  short : ∀ rule ∈ H.rules, ∀ body ∈ rule.bodies,
    body.length ≤ 2 ∧ (body.length = 2 → ∃ B C, body = [.nonterminal B, .nonterminal C])
  /-- A fresh non-terminal has one body. It stands for the block that it unfolds to, and generates
  what the block derives. -/
  fresh : ∀ Z ∈ H.nonterminals, Z ∉ G.nonterminals →
    (∃ body, H.bodies Z = [body] ∧ body.flatMap unfold = unfold (.nonterminal Z)) ∧
      G.IsBlock (unfold (.nonterminal Z)) ∧
      ∀ w, H.Generates Z w ↔ G.Derives (unfold (.nonterminal Z)) w

theorem WellFormed.isBlock_of_mem_blocks (wf : G.WellFormed) {block : Body}
    (mem : block ∈ G.blocks) : G.IsBlock block := by
  rcases mem_blocks_iff.mp mem with terminal | ⟨rule, hrule, body, hbody, mem⟩
  · exact .inl terminal
  · obtain ⟨pre, long, short⟩ := Body.mem_blocks_iff.mp mem
    exact .inr ⟨rule.lhs, body, wf.mem_bodies hrule hbody, by omega, pre, long, short⟩

/-- **Binarization is a conservative extension.** Whatever the supply, a binarization that succeeds
adds non-terminals that stand for blocks of symbols, and changes nothing else. -/
theorem WellFormed.extendsTo_of_binarizeWith (wf : G.WellFormed) {supply : NameSupply}
    {H : Grammar} (ok : (G.binarizeWith supply).2.outcome = .ok H) :
    G.ExtendsTo H (G.unfold (max supply.next G.nonterminals.length)) := by
  obtain ⟨room, rfl⟩ := binarizeWith_eq_ok ok
  refine ⟨⟨fun a => rfl, fun A mem => unfold_of_mem_nonterminals room mem⟩,
    fun A mem w => generates_binaryForm_iff_of_mem wf room mem, fun A mem => ⟨?_, ?_⟩, ?_, ?_⟩
  · exact map_unfold_bodies_binaryForm wf room fun fresh => (room A fresh).1 mem
  · exact filter_short_bodies_binaryForm wf room mem
  · intro rule hrule body hbody
    rcases cases_of_mem_binaryForm hrule hbody with ⟨B, C, rfl⟩ | ⟨a, rfl⟩ | ⟨short, _⟩
    · exact ⟨Nat.le_refl 2, fun _ => ⟨B, C, rfl⟩⟩
    · exact ⟨by simp, by simp⟩
    · exact ⟨by omega, by omega⟩
  · -- a non-terminal that is new is one of the fresh ones
    intro Z mem new
    obtain ⟨i, hi, rfl⟩ : G.IsFresh _ Z := by
      rw [nonterminals_binaryForm, ← wf.leftSides_eq, ← leftSides_binaryForm,
        mem_leftSides_binaryForm_iff, wf.leftSides_eq] at mem
      exact mem.resolve_left new
    have found := List.getElem?_eq_getElem hi
    obtain ⟨body, _, bodies, unfolds⟩ := exists_bodies_binaryForm_eq wf room found
    have block := unfoldsFrom_blocks G (max supply.next G.nonterminals.length) i _ found
    refine ⟨⟨body, bodies, unfolds.trans block.symm⟩, ?_, fun w => generates_binaryForm_iff wf room⟩
    rw [block]
    exact wf.isBlock_of_mem_blocks (List.getElem_mem hi)

/-- The binary form of the grammar of brackets has a name for each bracket, and one for each of
the blocks `( S` and `( S )`. -/
theorem brackets_extendsTo_binaryForm :
    (brackets.binarizeWith .full).2.outcome = .ok (brackets.binaryForm 1) ∧
      brackets.ExtendsTo (brackets.binaryForm 1) (brackets.unfold 1) := by
  have ok : (brackets.binarizeWith .full).2.outcome = .ok (brackets.binaryForm 1) := by
    decide +kernel
  have extension := brackets_wellFormed.extendsTo_of_binarizeWith ok
  rw [show max NameSupply.full.next brackets.nonterminals.length = 1 from rfl] at extension
  exact ⟨ok, extension⟩

end Grammar

end ContextFree
