import ContextFree.Accessible
import ContextFree.Grammar.Declaration

/-!
# Well-formed grammars

A grammar is well formed if and only if its own parts declare it
(`Grammar.wellFormed_iff_ofRows?_eq_ok`): what the constructors build is exactly what
`Grammar.WellFormed` describes, so nothing is lost by speaking of well-formed grammars only.

In a well-formed grammar no left-hand side has two rules. The bodies of a non-terminal are then
the bodies of all rules for it (`Grammar.mem_bodies_iff`), and a change that goes over the rules
one by one is a change of the bodies of each non-terminal (`Grammar.bodies_of_rules_map`,
`Grammar.bodies_restrict`). Next to its start symbol and its alphabets, such a grammar is given by
its bodies (`Grammar.WellFormed.eq_of_bodies`). The stages of normalization change a grammar in two
ways that keep it well formed:

* they give other bodies to the same left-hand sides (`Grammar.WellFormed.withRules`);
* they keep some of the non-terminals (`Grammar.WellFormed.restrict`).
-/

namespace ContextFree

namespace Grammar

variable {G : Grammar}

/-! ### Bodies and rules -/

theorem WellFormed.leftSides_nodup (wf : G.WellFormed) : G.leftSides.Nodup :=
  wf.leftSides_eq ▸ wf.nonterminals_nodup

/-- There are as many rules as non-terminals. -/
theorem WellFormed.length_rules (wf : G.WellFormed) : G.rules.length = G.nonterminals.length := by
  rw [← wf.leftSides_eq, leftSides, List.length_map]

/-- Where no left-hand side has two rules, a non-terminal has the bodies of all rules for it. -/
theorem mem_bodies_iff (distinct : G.leftSides.Nodup) {A : Name} {body : Body} :
    body ∈ G.bodies A ↔ ∃ rule ∈ G.rules, rule.lhs = A ∧ body ∈ rule.bodies := by
  refine ⟨exists_rule_of_mem_bodies, ?_⟩
  rintro ⟨rule, mem, rfl, hbody⟩
  rw [bodies_of_mem distinct mem]
  exact hbody

/-- The bodies that a rule lists are bodies of its left-hand side. -/
theorem WellFormed.mem_bodies (wf : G.WellFormed) {rule : Rule Body} (hrule : rule ∈ G.rules)
    {body : Body} (hbody : body ∈ rule.bodies) : body ∈ G.bodies rule.lhs := by
  rw [bodies_of_mem wf.leftSides_nodup hrule]
  exact hbody

theorem WellFormed.mem_of_mem_bodies (wf : G.WellFormed) {A : Name} {body : Body}
    (mem : body ∈ G.bodies A) : A ∈ G.nonterminals := by
  obtain ⟨rule, hrule, rfl, _⟩ := exists_rule_of_mem_bodies mem
  rw [← wf.leftSides_eq]
  exact List.mem_map_of_mem hrule

theorem WellFormed.declares_of_mem_bodies (wf : G.WellFormed) {A : Name} {body : Body}
    (mem : body ∈ G.bodies A) {s : Symbol} (hs : s ∈ body) : G.Declares s := by
  obtain ⟨rule, hrule, _, hbody⟩ := exists_rule_of_mem_bodies mem
  exact wf.declared rule hrule body hbody s hs

theorem WellFormed.bodies_nodup_bodies (wf : G.WellFormed) (A : Name) : (G.bodies A).Nodup := by
  by_cases mem : A ∈ G.leftSides
  · obtain ⟨rule, hrule, rfl⟩ := List.mem_map.mp mem
    rw [bodies_of_mem wf.leftSides_nodup hrule]
    exact wf.bodies_nodup rule hrule
  · rw [bodies_of_not_mem mem]
    exact List.nodup_nil

theorem bodies_eq_getD (A : Name) :
    G.bodies A = ((G.rules.find? (·.lhs = A)).map (·.bodies)).getD [] := by
  unfold bodies
  cases G.rules.find? (·.lhs = A) <;> rfl

/-- The bodies of a non-terminal when each rule is given other bodies. -/
theorem bodies_of_rules_map {H : Grammar} {f : List Body → List Body} (nil : f [] = [])
    (rules : H.rules = G.rules.map fun rule => ⟨rule.lhs, f rule.bodies⟩) (A : Name) :
    H.bodies A = f (G.bodies A) := by
  rw [bodies_eq_getD, bodies_eq_getD, rules, List.find?_map]
  simp only [Function.comp_def]
  cases G.rules.find? (·.lhs = A) with
  | none => exact nil.symm
  | some rule => rfl

theorem bodies_restrict (keep : Name → Bool) (A : Name) :
    (G.restrict keep).bodies A = if keep A then G.bodies A else [] := by
  rw [bodies_eq_getD, bodies_eq_getD, restrict, List.find?_filter]
  by_cases hA : keep A
  · -- a rule for `A` is kept, so looking for it among those that are kept changes nothing
    have same : ∀ rule : Rule Body,
        decide (keep rule.lhs = true ∧ decide (rule.lhs = A) = true) = decide (rule.lhs = A) := by
      intro rule
      by_cases h : rule.lhs = A <;> simp [h, hA]
    simp only [same, if_pos hA]
  · -- a rule for `A` is not kept, so there is none to be found
    have never : ∀ rule : Rule Body,
        decide (keep rule.lhs = true ∧ decide (rule.lhs = A) = true) = false := by
      intro rule
      by_cases h : rule.lhs = A <;> simp [h, hA]
    have none : G.rules.find? (fun _ => false) = none := by simp
    simp only [never, none, if_neg hA]
    rfl

/-! ### Grammars given by their bodies -/

/-- In a well-formed grammar the rules are the declared non-terminals, each with its bodies. -/
theorem WellFormed.rules_eq (wf : G.WellFormed) :
    G.rules = G.nonterminals.map fun A => ⟨A, G.bodies A⟩ := by
  have own : ∀ rule ∈ G.rules, (⟨rule.lhs, G.bodies rule.lhs⟩ : Rule Body) = rule := by
    intro rule mem
    rw [bodies_of_mem wf.leftSides_nodup mem]
  calc G.rules
      = G.rules.map id := (List.map_id _).symm
    _ = G.rules.map fun rule => ⟨rule.lhs, G.bodies rule.lhs⟩ :=
        List.map_congr_left fun rule mem => (own rule mem).symm
    _ = G.nonterminals.map fun A => ⟨A, G.bodies A⟩ := by
        rw [← wf.leftSides_eq, leftSides, List.map_map]
        rfl

/-- **A well-formed grammar is given by its bodies**, next to its start symbol and alphabets. -/
theorem WellFormed.eq_of_bodies {H : Grammar} (wfG : G.WellFormed) (wfH : H.WellFormed)
    (start : G.start = H.start) (nonterminals : G.nonterminals = H.nonterminals)
    (terminals : G.terminals = H.terminals)
    (bodies : ∀ A ∈ H.nonterminals, G.bodies A = H.bodies A) : G = H := by
  have rules : G.rules = H.rules := by
    rw [wfG.rules_eq, wfH.rules_eq, nonterminals]
    exact List.map_congr_left fun A mem => congrArg (Rule.mk A) (bodies A mem)
  cases G
  cases H
  simp only at start nonterminals terminals rules
  rw [start, nonterminals, terminals, rules]

/-! ### Changes that keep a grammar well formed -/

/-- **Other rules for the same left-hand sides.** -/
theorem WellFormed.withRules (wf : G.WellFormed) {rules : List (Rule Body)}
    (leftSides : rules.map (·.lhs) = G.nonterminals)
    (declared : ∀ rule ∈ rules, ∀ body ∈ rule.bodies, ∀ s ∈ body, G.Declares s)
    (nodup : ∀ rule ∈ rules, rule.bodies.Nodup) : ({ G with rules } : Grammar).WellFormed where
  start_mem := wf.start_mem
  disjoint := wf.disjoint
  nonterminals_nodup := wf.nonterminals_nodup
  terminals_nodup := wf.terminals_nodup
  leftSides_eq := leftSides
  declared rule hrule body hbody s hs := by
    have := declared rule hrule body hbody s hs
    cases s <;> exact this
  bodies_nodup := nodup

/-- **Fewer non-terminals.** The start symbol has to be kept, and with a rule everything that its
bodies mention. -/
theorem WellFormed.restrict (wf : G.WellFormed) {keep : Name → Bool} (start : keep G.start)
    (mentioned : ∀ rule ∈ G.rules, keep rule.lhs →
      ∀ body ∈ rule.bodies, ∀ A, .nonterminal A ∈ body → keep A) :
    (G.restrict keep).WellFormed where
  start_mem := List.mem_filter.mpr ⟨wf.start_mem, start⟩
  disjoint a ha hA := wf.disjoint a ha (List.mem_filter.mp hA).1
  nonterminals_nodup := wf.nonterminals_nodup.filter _
  terminals_nodup := wf.terminals_nodup
  leftSides_eq := by
    change (G.rules.filter fun rule => keep rule.lhs).map (·.lhs) = G.nonterminals.filter keep
    rw [← wf.leftSides_eq, leftSides, List.filter_map]
    rfl
  declared rule hrule body hbody s hs := by
    obtain ⟨mem, kept⟩ := List.mem_filter.mp hrule
    have declares := wf.declared rule mem body hbody s hs
    cases s with
    | terminal a => exact declares
    | nonterminal A => exact List.mem_filter.mpr ⟨declares, mentioned rule mem kept body hbody A hs⟩
  bodies_nodup rule hrule := wf.bodies_nodup rule (List.mem_filter.mp hrule).1

/-! ### Well-formed grammars are the declared ones -/

/-- The rows of a well-formed grammar give back its rules. -/
theorem WellFormed.gather_rules (wf : G.WellFormed) :
    (G.nonterminals.map fun A => (⟨A, gather G.rules A⟩ : Rule Body)) = G.rules := by
  -- a left-hand side has one rule, and this rule lists no body twice
  have one : ∀ rule ∈ G.rules, gather G.rules rule.lhs = rule.bodies := by
    intro rule mem
    unfold gather
    rw [filter_key_eq wf.leftSides_nodup mem, List.flatMap_singleton]
    exact eraseDups_of_nodup (wf.bodies_nodup rule mem)
  calc (G.nonterminals.map fun A => (⟨A, gather G.rules A⟩ : Rule Body))
      = G.rules.map fun rule => ⟨rule.lhs, gather G.rules rule.lhs⟩ := by
        rw [← wf.leftSides_eq, leftSides, List.map_map]
        rfl
    _ = G.rules.map id := List.map_congr_left fun rule mem => by rw [one rule mem]; rfl
    _ = G.rules := List.map_id G.rules

/-- **Well-formed grammars are the declared ones**: the parts of a grammar make up that grammar if
and only if it is well formed. -/
theorem wellFormed_iff_ofRows?_eq_ok :
    G.WellFormed ↔ ofRows? G.nonterminals G.terminals G.rules G.start = .ok G := by
  refine ⟨fun wf => ?_, ofRows?_wellFormed⟩
  -- the rules have no fault as rows, and gathering the rows gives back the rules
  have fine : fault? G.nonterminals G.terminals G.rules G.start = none := by
    refine fault?_eq_none_iff.mpr ⟨wf.start_mem, wf.disjoint, fun rule mem => ⟨?_, ?_⟩⟩
    · rw [← wf.leftSides_eq]
      exact List.mem_map_of_mem mem
    · intro body hbody s hs
      have := wf.declared rule mem body hbody s hs
      cases s <;> simpa [isDeclared, Declares] using this
  rw [ofRows?_eq, fine, Option.elim_none, gatherAll]
  simp only [eraseDups_of_nodup wf.nonterminals_nodup, eraseDups_of_nodup wf.terminals_nodup,
    wf.gather_rules]

/-- The grammar `S → ( S ) S | ε` of nested brackets. -/
def brackets : Grammar where
  start := .ofCons 'S' []
  nonterminals := [.ofCons 'S' []]
  terminals := [.ofCons '(' [], .ofCons ')' []]
  rules := [⟨.ofCons 'S' [],
    [[.terminal (.ofCons '(' []), .nonterminal (.ofCons 'S' []),
      .terminal (.ofCons ')' []), .nonterminal (.ofCons 'S' [])], []]⟩]

theorem brackets_wellFormed : brackets.WellFormed :=
  wellFormed_iff_ofRows?_eq_ok.mpr rfl

/-- The grammar `S → A A | A | b`, `A → S | ε`. Each of its non-terminals vanishes and reaches the
other one by a unit production. -/
def loops : Grammar where
  start := .ofCons 'S' []
  nonterminals := [.ofCons 'S' [], .ofCons 'A' []]
  terminals := [.ofCons 'b' []]
  rules := [
    ⟨.ofCons 'S' [],
      [[.nonterminal (.ofCons 'A' []), .nonterminal (.ofCons 'A' [])],
        [.nonterminal (.ofCons 'A' [])], [.terminal (.ofCons 'b' [])]]⟩,
    ⟨.ofCons 'A' [], [[.nonterminal (.ofCons 'S' [])], []]⟩]

theorem loops_wellFormed : loops.WellFormed :=
  wellFormed_iff_ofRows?_eq_ok.mpr rfl

end Grammar

end ContextFree
