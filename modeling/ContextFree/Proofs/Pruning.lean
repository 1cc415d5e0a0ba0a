import ContextFree.Productive
import ContextFree.Proofs.Interpretation
import ContextFree.Proofs.Sweep

/-!
# Pruning

A non-terminal that the start symbol does not reach takes no part in any derivation from one that
it does reach, and a non-terminal that generates nothing takes no part in any derivation at all.
Leaving them out, and with them the bodies that mention the latter, changes no word of a
non-terminal that is kept.

* `Grammar.WellFormed.mem_accessible_iff`, `Grammar.WellFormed.mem_productives_iff` — what the
  searches find;
* `Grammar.WellFormed.generates_restrict_accessible_iff`,
  `Grammar.WellFormed.generates_productivePart_iff` — what the pruned grammars generate.
-/

namespace ContextFree

namespace Body

theorem isProductive_iff {productive : List Name} {body : Body} :
    body.isProductive productive ↔ ∀ B, .nonterminal B ∈ body → B ∈ productive := by
  rw [isProductive, List.all_eq_true]
  refine ⟨fun h B hB => ?_, fun h s hs => ?_⟩
  · simpa using h _ hB
  · cases s with
    | terminal a => rfl
    | nonterminal B => simpa using h B hs

end Body

namespace Grammar

variable {G : Grammar} {A : Name} {w : List Name}

/-! ### Accessible non-terminals -/

theorem mem_mentions_iff {B : Name} :
    B ∈ G.mentions A ↔ ∃ body ∈ G.bodies A, .nonterminal B ∈ body := by
  rw [mentions, List.mem_flatMap]
  exact exists_congr fun body => and_congr_right fun _ => Body.mem_nonterminals

theorem WellFormed.mentions_subset (wf : G.WellFormed) :
    ∀ B ∈ G.nonterminals, ∀ C ∈ G.mentions B, C ∈ G.nonterminals := by
  intro B _ C hC
  obtain ⟨body, mem, hC⟩ := mem_mentions_iff.mp hC
  exact wf.declares_of_mem_bodies mem hC

theorem reachedIn_iff {n : Nat} : G.ReachedIn n A ↔ Reaches G.mentions G.start n A := by
  refine ⟨fun h => ?_, fun h => ?_⟩
  · induction h with
    | start => exact .refl
    | step _ mem ih => exact ih.step mem
  · induction h with
    | refl => exact .start
    | step _ mem ih => exact ih.step mem

/-- As many rounds as there are non-terminals find the accessible ones. -/
theorem WellFormed.accessible_eq (wf : G.WellFormed) :
    G.accessible = (settle (spread G.mentions) G.nonterminals.length [G.start]).2 := by
  rw [accessible, wf.length_rules]
  rfl

/-- **The search finds the accessible non-terminals.** -/
theorem WellFormed.mem_accessible_iff (wf : G.WellFormed) :
    A ∈ G.accessible ↔ G.IsAccessible A := by
  rw [wf.accessible_eq]
  refine (mem_settle_spread_iff wf.mentions_subset wf.start_mem).trans ?_
  exact exists_congr fun n => reachedIn_iff.symm

theorem WellFormed.start_mem_accessible (wf : G.WellFormed) : G.start ∈ G.accessible :=
  wf.mem_accessible_iff.mpr ⟨0, .start⟩

/-- What an accessible non-terminal mentions is accessible. -/
theorem WellFormed.mem_accessible_of_mem_bodies (wf : G.WellFormed) (hA : A ∈ G.accessible)
    {body : Body} (mem : body ∈ G.bodies A) {B : Name} (hB : .nonterminal B ∈ body) :
    B ∈ G.accessible := by
  obtain ⟨n, reached⟩ := wf.mem_accessible_iff.mp hA
  exact wf.mem_accessible_iff.mpr ⟨n + 1, reached.step (mem_mentions_iff.mpr ⟨body, mem, hB⟩)⟩

theorem outcome_removeInaccessible :
    G.removeInaccessible.outcome = .ok (G.restrict G.accessible.contains) := by
  unfold removeInaccessible
  simp only
  split <;> rfl

/-- **What is accessible generates the same words** when the rest is left out. -/
theorem WellFormed.generates_restrict_accessible_iff (wf : G.WellFormed) (hA : A ∈ G.accessible) :
    (G.restrict G.accessible.contains).Generates A w ↔ G.Generates A w := by
  have kept : ∀ B ∈ G.accessible, (G.restrict G.accessible.contains).bodies B = G.bodies B := by
    intro B hB
    rw [bodies_restrict, if_pos (List.contains_iff_mem.mpr hB)]
  refine ⟨fun h => ?_, fun h => ?_⟩
  · -- there are fewer rules
    refine h.of_bodies_subset fun B body mem => ?_
    rw [bodies_restrict] at mem
    split at mem
    · exact mem
    · cases mem
  · -- nothing is claimed of what is not accessible, and it is never met
    have closed : G.IsClosed fun B u =>
        B ∈ G.accessible → (G.restrict G.accessible.contains).Generates B u := by
      intro B body mem u reads hB
      refine ⟨body, (kept B hB).symm ▸ mem, derives_iff_reads.mpr (reads.mono ?_)⟩
      exact fun C hC v hv => hv (wf.mem_accessible_of_mem_bodies hB mem hC)
    exact closed.of_generates h hA

theorem WellFormed.restrict_accessible (wf : G.WellFormed) :
    (G.restrict G.accessible.contains).WellFormed := by
  refine wf.restrict (List.contains_iff_mem.mpr wf.start_mem_accessible) ?_
  intro rule mem kept body hbody B hB
  rw [List.contains_iff_mem] at kept ⊢
  refine wf.mem_accessible_of_mem_bodies kept ?_ hB
  exact wf.mem_bodies mem hbody

/-! ### Productive non-terminals -/

/-- The non-terminals that sweeps find to be productive. -/
def productives (G : Grammar) : List Name := G.swept Body.isProductive

theorem WellFormed.outcome_productive (wf : G.WellFormed) :
    G.productive.outcome = .ok G.productives :=
  wf.outcome_saturate_sweep .productive

/-- A body of productive non-terminals derives some word. -/
theorem exists_derives {productive : List Name} (generates : ∀ B ∈ productive, ∃ w, G.Generates B w)
    {body : Body} (h : body.isProductive productive) : ∃ w, G.Derives body w := by
  rw [Body.isProductive_iff] at h
  induction body with
  | nil => exact ⟨[], .nil⟩
  | cons s rest ih =>
    obtain ⟨v, hv⟩ := ih fun B hB => h B (List.mem_cons_of_mem s hB)
    cases s with
    | terminal a => exact ⟨a :: v, .terminal hv⟩
    | nonterminal B =>
      obtain ⟨u, hu⟩ := generates B (h B List.mem_cons_self)
      exact ⟨u ++ v, derives_nonterminal_iff.mpr ⟨u, v, rfl, hu, hv⟩⟩

/-- **The productive non-terminals are those that generate some word.** -/
theorem WellFormed.mem_productives_iff (wf : G.WellFormed) :
    A ∈ G.productives ↔ ∃ w, G.Generates A w := by
  refine ⟨?_, fun ⟨w, h⟩ => ?_⟩
  · -- a word for a non-terminal that joins is made of words for those that are found
    have sound : ∀ B ∈ G.productives, ∃ w, G.Generates B w := by
      refine swept_induction (P := fun found => ∀ B ∈ found, ∃ w, G.Generates B w) (by simp) ?_
      intro found sound rule mem _ body hbody ripens B hB
      rcases List.mem_append.mp hB with hB | hB
      · exact sound B hB
      · rw [List.mem_singleton.mp hB]
        obtain ⟨w, hw⟩ := exists_derives sound ripens
        exact ⟨w, body, wf.mem_bodies mem hbody, hw⟩
    exact sound A
  · -- in a derivation every body is ripe, as its pieces are words
    have closed : G.IsClosed fun B _ => B ∈ G.productives := by
      intro B body mem u reads
      refine wf.mem_swept_of_ripe mem (Body.isProductive_iff.mpr fun C hC => ?_)
      obtain ⟨_, hC⟩ := reads.exists_of_mem hC
      exact hC
    exact closed.of_generates h

/-- The productive non-terminals outlast the removal of the others, and so does the start symbol. -/
def outlasts (G : Grammar) (A : Name) : Bool := G.productives.contains A || A = G.start

theorem outlasts_iff : G.outlasts A ↔ A ∈ G.productives ∨ A = G.start := by
  rw [outlasts, Bool.or_eq_true, List.contains_iff_mem, decide_eq_true_iff]

/-- The grammar without non-terminals that are not productive. -/
def productivePart (G : Grammar) : Grammar :=
  (G.restrict G.outlasts).withBodiesOver G.productives

theorem WellFormed.outcome_removeNonproductive (wf : G.WellFormed) :
    G.removeNonproductive.outcome = .ok G.productivePart := by
  unfold removeNonproductive
  rw [Report.outcome_bind, wf.outcome_productive]
  simp only [Except.bind]
  split <;> split <;> rfl

theorem bodies_productivePart (A : Name) :
    G.productivePart.bodies A =
      (if G.outlasts A then G.bodies A else []).filter (Body.isProductive G.productives) := by
  rw [productivePart, bodies_of_rules_map (f := List.filter _) rfl rfl A, bodies_restrict]

theorem mem_bodies_productivePart_iff {body : Body} :
    body ∈ G.productivePart.bodies A ↔
      G.outlasts A ∧ body ∈ G.bodies A ∧ body.isProductive G.productives := by
  rw [bodies_productivePart, List.mem_filter]
  split
  · next outlasts => simp [outlasts]
  · next outlasts => simp [outlasts]

/-- **Every non-terminal generates the same words** without those that are not productive. -/
theorem WellFormed.generates_productivePart_iff (wf : G.WellFormed) :
    G.productivePart.Generates A w ↔ G.Generates A w := by
  refine ⟨fun h => ?_, fun h => ?_⟩
  · exact h.of_bodies_subset fun B body mem => (mem_bodies_productivePart_iff.mp mem).2.1
  · refine generates_induction (I := G.productivePart.Generates) ?_ h
    intro B body mem u reads
    -- the body takes part in a derivation, so all that it mentions is productive
    have productive : body.isProductive G.productives := by
      refine Body.isProductive_iff.mpr fun C hC => wf.mem_productives_iff.mpr ?_
      obtain ⟨v, hv, _⟩ := reads.exists_of_mem hC
      exact ⟨v, hv⟩
    have outlasts : G.outlasts B := outlasts_iff.mpr (.inl (wf.mem_swept_of_ripe mem productive))
    refine ⟨body, mem_bodies_productivePart_iff.mpr ⟨outlasts, mem, productive⟩, ?_⟩
    exact derives_iff_reads.mpr (reads.mono fun _ _ _ both => both.2)

theorem WellFormed.productivePart (wf : G.WellFormed) : G.productivePart.WellFormed := by
  -- the bodies first and the non-terminals afterwards, so that each step is well formed
  have swap : G.productivePart = (G.withBodiesOver G.productives).restrict G.outlasts := by
    rw [Grammar.productivePart, withBodiesOver, withBodiesOver, Grammar.restrict, Grammar.restrict,
      List.filter_map]
    rfl
  have fewer : (G.withBodiesOver G.productives).WellFormed := by
    refine wf.withRules ?_ ?_ ?_
    · rw [← wf.leftSides_eq, leftSides, List.map_map]
      rfl
    · intro rule hrule body hbody s hs
      obtain ⟨rule, mem, rfl⟩ := List.mem_map.mp hrule
      exact wf.declared rule mem body (List.mem_filter.mp hbody).1 s hs
    · intro rule hrule
      obtain ⟨rule, mem, rfl⟩ := List.mem_map.mp hrule
      exact (wf.bodies_nodup rule mem).filter _
  rw [swap]
  refine fewer.restrict ?_ ?_
  · exact outlasts_iff.mpr (.inr rfl)
  · intro rule hrule _ body hbody B hB
    obtain ⟨rule, _, rfl⟩ := List.mem_map.mp hrule
    have productive := Body.isProductive_iff.mp (List.mem_filter.mp hbody).2 B hB
    exact outlasts_iff.mpr (.inl productive)

end Grammar

end ContextFree
