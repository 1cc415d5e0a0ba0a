import ContextFree.Nullable
import ContextFree.Proofs.Interpretation
import ContextFree.Proofs.Sweep

/-!
# Elimination of empty bodies

The nullable non-terminals are those that generate the empty word
(`Grammar.WellFormed.mem_nullables_iff`). The search for them succeeds and finds each of them once
(`Grammar.WellFormed.exists_nullable`).

A variant of a body leaves out nullable occurrences only, so that it derives no new words. A word
that falls into pieces along a body falls into the same pieces along the variant that leaves out the
occurrences with an empty piece. Hence the elimination of empty bodies costs every non-terminal the
empty word and nothing else (`Grammar.WellFormed.generates_withoutEmpty_iff`).
-/

namespace ContextFree

/-! ### Variants of a body -/

namespace Body

variable {nullable : List Name} {body variant : Body}

theorem vanishes_iff : body.vanishes nullable ↔ ∀ s ∈ body, ∃ A ∈ nullable, s = .nonterminal A := by
  rw [vanishes, List.all_eq_true]
  refine forall_congr' fun s => forall_congr' fun _ => ?_
  cases s with
  | terminal a => simp
  | nonterminal A => simp

theorem mem_variants_terminal_iff {a : Name} {rest : Body} :
    variant ∈ variants nullable (.terminal a :: rest) ↔
      ∃ shorter ∈ variants nullable rest, variant = .terminal a :: shorter := by
  rw [variants, List.mem_map]
  exact exists_congr fun _ => and_congr_right fun _ => eq_comm

theorem mem_variants_nonterminal_iff {A : Name} {rest : Body} :
    variant ∈ variants nullable (.nonterminal A :: rest) ↔
      ∃ shorter ∈ variants nullable rest,
        variant = .nonterminal A :: shorter ∨ A ∈ nullable ∧ variant = shorter := by
  rw [variants, List.mem_append, List.mem_map]
  by_cases hA : A ∈ nullable
  · -- there are variants with the occurrence and variants without it
    rw [if_pos (List.contains_iff_mem.mpr hA)]
    refine ⟨?_, ?_⟩
    · rintro (⟨shorter, mem, rfl⟩ | mem)
      · exact ⟨shorter, mem, .inl rfl⟩
      · exact ⟨variant, mem, .inr ⟨hA, rfl⟩⟩
    · rintro ⟨shorter, mem, rfl | ⟨_, rfl⟩⟩
      · exact .inl ⟨shorter, mem, rfl⟩
      · exact .inr mem
  · -- the occurrence stays in all variants
    rw [if_neg (fun h => hA (List.contains_iff_mem.mp h))]
    refine ⟨?_, ?_⟩
    · rintro (⟨shorter, mem, rfl⟩ | mem)
      · exact ⟨shorter, mem, .inl rfl⟩
      · cases mem
    · rintro ⟨shorter, mem, rfl | ⟨hA', _⟩⟩
      · exact .inl ⟨shorter, mem, rfl⟩
      · exact absurd hA' hA

/-- A variant is what is left of the body when something is taken out. -/
theorem sublist_of_mem_variants (h : variant ∈ variants nullable body) :
    variant.Sublist body := by
  induction body generalizing variant with
  | nil =>
    obtain rfl : variant = [] := List.mem_singleton.mp h
    exact List.Sublist.slnil
  | cons s rest ih =>
    cases s with
    | terminal a =>
      obtain ⟨shorter, mem, rfl⟩ := mem_variants_terminal_iff.mp h
      exact (ih mem).cons_cons _
    | nonterminal A =>
      obtain ⟨shorter, mem, rfl | ⟨_, rfl⟩⟩ := mem_variants_nonterminal_iff.mp h
      · exact (ih mem).cons_cons _
      · exact (ih mem).cons _

/-- Where nothing is nullable, a body has no variant but itself. -/
theorem variants_nil (body : Body) : variants [] body = [body] := by
  induction body with
  | nil => rfl
  | cons s rest ih => cases s <;> simp [variants, ih]

end Body

namespace Grammar

variable {G H : Grammar} {nullable : List Name} {A : Name} {body variant : Body} {w : List Name}

/-- Leaving out what derives the empty word adds no words. -/
theorem derives_of_mem_variants (empty : ∀ A ∈ nullable, G.Generates A [])
    (mem : variant ∈ Body.variants nullable body) (h : G.Derives variant w) : G.Derives body w := by
  induction body generalizing variant w with
  | nil =>
    rw [Body.variants, List.mem_singleton] at mem
    exact mem ▸ h
  | cons s rest ih =>
    cases s with
    | terminal a =>
      obtain ⟨shorter, hshorter, rfl⟩ := Body.mem_variants_terminal_iff.mp mem
      obtain ⟨v, rfl, hv⟩ := derives_terminal_iff.mp h
      exact .terminal (ih hshorter hv)
    | nonterminal A =>
      obtain ⟨shorter, hshorter, rfl | ⟨hA, rfl⟩⟩ := Body.mem_variants_nonterminal_iff.mp mem
      · obtain ⟨u, v, rfl, hu, hv⟩ := derives_nonterminal_iff.mp h
        exact derives_nonterminal_iff.mpr ⟨u, v, rfl, hu, ih hshorter hv⟩
      · -- what was left out takes the empty word
        have hrest : G.Derives rest w := ih hshorter h
        exact derives_nonterminal_iff.mpr ⟨[], w, rfl, empty A hA, hrest⟩

/-- A word of a body whose non-empty pieces another grammar has as well is derived there by a
variant of the body. -/
theorem exists_variant_derives (empty : ∀ A, G.Generates A [] → A ∈ nullable)
    (h : body.Reads (fun A u => G.Generates A u ∧ (u ≠ [] → H.Generates A u)) w) :
    ∃ variant ∈ Body.variants nullable body, H.Derives variant w := by
  induction body generalizing w with
  | nil => exact ⟨[], List.mem_singleton_self [], derives_nil_iff.mpr h⟩
  | cons s rest ih =>
    cases s with
    | terminal a =>
      obtain ⟨v, rfl, hv⟩ := h
      obtain ⟨variant, mem, hvariant⟩ := ih hv
      exact ⟨.terminal a :: variant, Body.mem_variants_terminal_iff.mpr ⟨variant, mem, rfl⟩,
        .terminal hvariant⟩
    | nonterminal A =>
      obtain ⟨u, v, rfl, ⟨hu, hu'⟩, hv⟩ := h
      obtain ⟨variant, mem, hvariant⟩ := ih hv
      by_cases hempty : u = []
      · -- an empty piece: the occurrence is nullable and is left out
        subst hempty
        refine ⟨variant, Body.mem_variants_nonterminal_iff.mpr ⟨variant, mem, .inr ?_⟩, hvariant⟩
        exact ⟨empty A hu, rfl⟩
      · -- any other piece is generated in the other grammar, and the occurrence stays
        refine ⟨.nonterminal A :: variant,
          Body.mem_variants_nonterminal_iff.mpr ⟨variant, mem, .inl rfl⟩, ?_⟩
        exact derives_nonterminal_iff.mpr ⟨u, v, rfl, hu' hempty, hvariant⟩

theorem mem_nonemptyVariants_iff {bodies : List Body} :
    variant ∈ nonemptyVariants nullable bodies ↔
      variant ≠ [] ∧ ∃ body ∈ bodies, variant ∈ Body.variants nullable body := by
  rw [nonemptyVariants, List.mem_eraseDups, List.mem_filter, List.mem_flatMap]
  refine ⟨?_, ?_⟩
  · rintro ⟨⟨body, mem, hvariant⟩, ne⟩
    exact ⟨by simpa using ne, body, (List.mem_filter.mp mem).1, hvariant⟩
  · rintro ⟨ne, body, mem, hvariant⟩
    -- the empty body has no variant but itself
    have hbody : body ≠ [] := by
      rintro rfl
      exact ne (List.mem_singleton.mp hvariant)
    exact ⟨⟨body, List.mem_filter.mpr ⟨mem, by simpa using hbody⟩, hvariant⟩, by simpa using ne⟩

theorem bodies_withoutEmpty (A : Name) :
    (G.withoutEmpty nullable).bodies A = nonemptyVariants nullable (G.bodies A) :=
  bodies_of_rules_map rfl rfl A

/-! ### The nullable non-terminals -/

/-- A body derives the empty word if it consists of non-terminals that generate it. -/
theorem derives_nil_word_iff :
    G.Derives body [] ↔ ∀ s ∈ body, ∃ B, G.Generates B [] ∧ s = .nonterminal B :=
  derives_iff_reads.trans Body.reads_nil_iff

/-- The non-terminals that sweeps find to be nullable. -/
def nullables (G : Grammar) : List Name := G.swept Body.vanishes

theorem WellFormed.outcome_nullable (wf : G.WellFormed) : G.nullable.outcome = .ok G.nullables :=
  wf.outcome_saturate_sweep .nullable

/-- **The nullable non-terminals are those that generate the empty word.** -/
theorem WellFormed.mem_nullables_iff (wf : G.WellFormed) :
    A ∈ G.nullables ↔ G.Generates A [] := by
  refine ⟨?_, fun h => ?_⟩
  · -- a body that vanishes over what generates the empty word derives the empty word
    have sound : ∀ B ∈ G.nullables, G.Generates B [] := by
      refine swept_induction (P := fun found => ∀ B ∈ found, G.Generates B []) (by simp) ?_
      intro found sound rule mem _ body hbody vanishes B hB
      rcases List.mem_append.mp hB with hB | hB
      · exact sound B hB
      · rw [List.mem_singleton.mp hB]
        refine ⟨body, wf.mem_bodies mem hbody, derives_nil_word_iff.mpr fun s hs => ?_⟩
        obtain ⟨C, hC, rfl⟩ := Body.vanishes_iff.mp vanishes s hs
        exact ⟨C, sound C hC, rfl⟩
    exact sound A
  · -- in a derivation of the empty word all pieces are empty
    refine generates_induction (I := fun B u => u = [] → B ∈ G.nullables) ?_ h rfl
    rintro B body mem _ reads rfl
    refine wf.mem_swept_of_ripe mem (Body.vanishes_iff.mpr fun s hs => ?_)
    obtain ⟨C, ⟨_, found⟩, rfl⟩ := Body.reads_nil_iff.mp reads s hs
    exact ⟨C, found rfl, rfl⟩

/-- **The search for nullable non-terminals finds them all**, and each of them once: the declared
non-terminals that generate the empty word. A non-terminal is among them if and only if one of its
bodies is made up of them, whether or not it is an empty body. -/
theorem WellFormed.exists_nullable (wf : G.WellFormed) :
    ∃ found, G.nullable.outcome = .ok found ∧ found.Nodup ∧
      (∀ A, A ∈ found ↔ A ∈ G.nonterminals ∧ G.Generates A []) ∧
      ∀ A, A ∈ found ↔ ∃ body ∈ G.bodies A, ∀ s ∈ body, ∃ B ∈ found, s = .nonterminal B := by
  have declared : ∀ A, G.Generates A [] → A ∈ G.nonterminals := by
    rintro A ⟨body, mem, _⟩
    exact wf.mem_of_mem_bodies mem
  refine ⟨G.nullables, wf.outcome_nullable, nodup_swept, fun A => ?_, fun A => ?_⟩
  · rw [wf.mem_nullables_iff]
    exact (and_iff_right_of_imp (declared A)).symm
  · -- to generate the empty word is to have a body that derives it
    simp only [wf.mem_nullables_iff, ← derives_nil_word_iff]
    rfl

/-- The grammar `S → A B | a`, `A → B B`, `B → ε | b`, `C → a C`. -/
def fading : Grammar where
  start := .ofCons 'S' []
  nonterminals := [.ofCons 'S' [], .ofCons 'A' [], .ofCons 'B' [], .ofCons 'C' []]
  terminals := [.ofCons 'a' [], .ofCons 'b' []]
  rules := [
    ⟨.ofCons 'S' [],
      [[.nonterminal (.ofCons 'A' []), .nonterminal (.ofCons 'B' [])],
        [.terminal (.ofCons 'a' [])]]⟩,
    ⟨.ofCons 'A' [], [[.nonterminal (.ofCons 'B' []), .nonterminal (.ofCons 'B' [])]]⟩,
    ⟨.ofCons 'B' [], [[], [.terminal (.ofCons 'b' [])]]⟩,
    ⟨.ofCons 'C' [], [[.terminal (.ofCons 'a' []), .nonterminal (.ofCons 'C' [])]]⟩]

/-- Each sweep finds one more of them, from the bottom up, and `C` is never found. -/
theorem fading_nullable :
    fading.WellFormed ∧ ∃ found, fading.nullable.outcome = .ok found ∧
      found = [.ofCons 'B' [], .ofCons 'A' [], .ofCons 'S' []] ∧
      ∀ A, A ∈ found ↔ A ∈ fading.nonterminals ∧ fading.Generates A [] := by
  have wf : fading.WellFormed := wellFormed_iff_ofRows?_eq_ok.mpr (by decide +kernel)
  obtain ⟨found, ok, _, mem_iff, _⟩ := wf.exists_nullable
  refine ⟨wf, found, ok, ?_, mem_iff⟩
  have same : fading.nullables = found := Except.ok.inj (wf.outcome_nullable.symm.trans ok)
  rw [← same]
  decide +kernel

/-- Where no body is empty, nothing is nullable. -/
theorem WellFormed.nullables_eq_nil (wf : G.WellFormed) (nonempty : ∀ A, [] ∉ G.bodies A) :
    G.nullables = [] := by
  refine List.eq_nil_iff_forall_not_mem.mpr fun A mem => ?_
  have generates : G.Generates A [] := wf.mem_nullables_iff.mp mem
  exact generates.ne_nil nonempty rfl

/-! ### The grammar without empty bodies -/

theorem WellFormed.outcome_eliminateEmpty (wf : G.WellFormed) :
    G.eliminateEmpty.outcome = .ok (G.withoutEmpty G.nullables) := by
  unfold eliminateEmpty
  rw [Report.outcome_bind, wf.outcome_nullable]
  rfl

theorem nil_notMem_bodies_withoutEmpty (A : Name) : [] ∉ (G.withoutEmpty nullable).bodies A := by
  rw [bodies_withoutEmpty, mem_nonemptyVariants_iff]
  exact fun h => h.1 rfl

/-- **The elimination of empty bodies costs the empty word and nothing else.** -/
theorem WellFormed.generates_withoutEmpty_iff (wf : G.WellFormed) :
    (G.withoutEmpty G.nullables).Generates A w ↔ w ≠ [] ∧ G.Generates A w := by
  refine ⟨fun h => ⟨h.ne_nil nil_notMem_bodies_withoutEmpty, ?_⟩, fun ⟨ne, h⟩ => ?_⟩
  · -- what is derived by a variant is derived by the body
    have closed : (G.withoutEmpty G.nullables).IsClosed G.Generates := by
      intro B variant mem u reads
      rw [bodies_withoutEmpty, mem_nonemptyVariants_iff] at mem
      obtain ⟨_, body, mem, hvariant⟩ := mem
      have empty : ∀ C ∈ G.nullables, G.Generates C [] := fun C => wf.mem_nullables_iff.mp
      exact ⟨body, mem, derives_of_mem_variants empty hvariant (derives_iff_reads.mpr reads)⟩
    exact closed.of_generates h
  · -- a word is derived by the variant that leaves out what takes the empty word in it
    refine generates_induction
      (I := fun B u => u ≠ [] → (G.withoutEmpty G.nullables).Generates B u) ?_ h ne
    intro B body mem u reads hu
    have empty : ∀ C, G.Generates C [] → C ∈ G.nullables := fun C => wf.mem_nullables_iff.mpr
    obtain ⟨variant, hvariant, derives⟩ := exists_variant_derives empty reads
    have hne : variant ≠ [] := by
      rintro rfl
      exact hu (derives_nil_iff.mp derives)
    refine ⟨variant, ?_, derives⟩
    rw [bodies_withoutEmpty, mem_nonemptyVariants_iff]
    exact ⟨hne, body, mem, hvariant⟩

theorem WellFormed.withoutEmpty (wf : G.WellFormed) : (G.withoutEmpty nullable).WellFormed := by
  refine wf.withRules ?_ ?_ ?_
  · rw [← wf.leftSides_eq, leftSides, List.map_map]
    rfl
  · intro rule hrule variant hvariant s hs
    obtain ⟨rule, mem, rfl⟩ := List.mem_map.mp hrule
    obtain ⟨_, body, hbody, hvariant⟩ := mem_nonemptyVariants_iff.mp hvariant
    exact wf.declared rule mem body hbody s ((Body.sublist_of_mem_variants hvariant).subset hs)
  · intro rule hrule
    obtain ⟨rule, _, rfl⟩ := List.mem_map.mp hrule
    exact nodup_eraseDups _

/-- **Empty bodies can always be eliminated.** The elimination succeeds and leaves no body empty;
every non-terminal, not only the start symbol, goes on to generate the words that it generated,
except for the empty one. -/
theorem WellFormed.exists_eliminateEmpty (wf : G.WellFormed) :
    ∃ H, G.eliminateEmpty.outcome = .ok H ∧
      H.start = G.start ∧ H.nonterminals = G.nonterminals ∧
      (∀ rule ∈ H.rules, ∀ body ∈ rule.bodies, body ≠ []) ∧
      ∀ A w, H.Generates A w ↔ w ≠ [] ∧ G.Generates A w := by
  refine ⟨G.withoutEmpty G.nullables, wf.outcome_eliminateEmpty, rfl, rfl, ?_, ?_⟩
  · -- a rule lists non-empty variants of its old bodies
    intro rule hrule body hbody
    obtain ⟨old, _, rfl⟩ := List.mem_map.mp hrule
    exact (mem_nonemptyVariants_iff.mp hbody).1
  · intro A w
    exact wf.generates_withoutEmpty_iff

/-- Both non-terminals of `loops` vanish. What is left of `A A` is `A A` and, once, `A`. -/
theorem loops_eliminateEmpty :
    loops.WellFormed ∧ ∃ H, loops.eliminateEmpty.outcome = .ok H ∧
      H.bodies (.ofCons 'S' []) =
        [[.nonterminal (.ofCons 'A' []), .nonterminal (.ofCons 'A' [])],
          [.nonterminal (.ofCons 'A' [])], [.terminal (.ofCons 'b' [])]] ∧
      H.bodies (.ofCons 'A' []) = [[.nonterminal (.ofCons 'S' [])]] ∧
      ∀ A w, H.Generates A w ↔ w ≠ [] ∧ loops.Generates A w := by
  obtain ⟨H, ok, _, _, _, words⟩ := loops_wellFormed.exists_eliminateEmpty
  have same : loops.withoutEmpty loops.nullables = H :=
    Except.ok.inj (loops_wellFormed.outcome_eliminateEmpty.symm.trans ok)
  refine ⟨loops_wellFormed, H, ok, ?_, ?_, words⟩
  · rw [← same]
    decide +kernel
  · rw [← same]
    decide +kernel

end Grammar

end ContextFree
