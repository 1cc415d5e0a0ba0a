import ContextFree.Proofs.SecondRun

/-!
# Grammars that generate nothing

Bringing a grammar into normal form loses the empty word. A start symbol that generates the empty
word and nothing else is therefore as good as one that generates nothing: once the empty bodies are
gone it is not productive, all its bodies are pruned, and this is worth a warning.

Whether there is a warning is decided when the fourth stage comes, on a grammar that three stages
have changed (`Grammar.cleared`). It has kept the non-empty words of the start symbol
(`Grammar.WellFormed.start_mem_productives_cleared_iff`), so the answer is about the grammar in the
beginning. No other stage warns of anything (`Grammar.level_ne_warn_of_mem_apply`), and the fourth
comes once, so there is at most one warning (`Grammar.WellFormed.warnings_toNormalForm`).

What all stages lead to shows it as well: only the start symbol may be without bodies there, and it
is if it generated no word but the empty one (`Grammar.WellFormed.fruitful_of_toNormalForm`).
-/

namespace ContextFree

namespace Report

variable {α β : Type}

/-- The warnings that a computation gave, in order. -/
def warnings (report : Report α) : List Event := report.events.filter (·.level = .warn)

theorem warnings_eq_nil {report : Report α} (mild : ∀ e ∈ report.events, e.level ≠ .warn) :
    report.warnings = [] := by
  refine List.filter_eq_nil_iff.mpr ?_
  intro e mem
  simpa using mild e mem

theorem warnings_bind_of_ok {first : Report α} {a : α} (ok : first.outcome = .ok a)
    (next : α → Report β) : (first >>= next).warnings = first.warnings ++ (next a).warnings := by
  rw [warnings, events_bind_of_ok ok, List.filter_append]
  rfl

end Report

namespace NameSupply

/-- Handing out names is nothing to warn of. -/
theorem level_ne_warn_of_mem_introduce {G : Grammar} {supply : NameSupply} {bodies : List Body} :
    ∀ e ∈ (supply.introduce G bodies).2.events, e.level ≠ .warn := by
  induction bodies generalizing supply with
  | nil => exact List.forall_mem_nil _
  | cons body bodies ih =>
    rcases mint_cases G.nonterminals G.terminals supply with ⟨_, _, refused, _⟩ | minted
    · rw [introduce_cons_of_error refused]
      exact List.forall_mem_nil _
    · -- the name of this body is told of, and then those of the others
      rw [introduce_cons_of_ok minted]
      refine Report.forall_events_bind ?_ fun _ => ih
      refine List.forall_mem_singleton.mpr ?_
      rintro ⟨⟩

end NameSupply

namespace Grammar

open Report (forall_events_bind warnings_bind_of_ok warnings_eq_nil)

variable {G H : Grammar} {stage : Stage} {supply : NameSupply} {w : List Name}

/-! ### Which stages warn -/

theorem level_ne_warn_of_mem_saturate {α : Type} [DecidableEq α] {closure : Closure} {bound : Nat}
    {round : α → α} {a : α} : ∀ e ∈ (saturate closure bound round a).events, e.level ≠ .warn := by
  intro e mem
  unfold saturate at mem
  simp only at mem
  split at mem
  · rw [List.mem_singleton.mp mem]
    rintro ⟨⟩
  · cases mem

/-- **Only the pruning of what is not productive warns of something.** -/
theorem level_ne_warn_of_mem_apply (ne : stage ≠ .removeNonproductive) :
    ∀ e ∈ (stage.apply supply G).2.events, e.level ≠ .warn := by
  cases stage with
  | eliminateEmpty =>
    refine forall_events_bind level_ne_warn_of_mem_saturate fun nullable => ?_
    refine List.forall_mem_singleton.mpr ?_
    rintro ⟨⟩
  | removeUnits =>
    refine forall_events_bind level_ne_warn_of_mem_saturate fun chains => ?_
    refine forall_events_bind ?_ fun _ => List.forall_mem_singleton.mpr ?_
    · -- one event for each chain
      intro e mem
      obtain ⟨chain, _, rfl⟩ := List.mem_map.mp mem
      rintro ⟨⟩
    · rintro ⟨⟩
  | removeInaccessible =>
    simp only [Stage.apply, removeInaccessible]
    split
    · refine List.forall_mem_singleton.mpr ?_
      rintro ⟨⟩
    · exact List.forall_mem_nil _
  | removeNonproductive => exact absurd rfl ne
  | binarize =>
    rw [Stage.apply, binarizeWith_eq]
    refine forall_events_bind NameSupply.level_ne_warn_of_mem_introduce fun _ => ?_
    refine List.forall_mem_singleton.mpr ?_
    rintro ⟨⟩

/-- The pruning of what is not productive warns once, if the start symbol is not productive. -/
theorem WellFormed.warnings_removeNonproductive (wf : G.WellFormed) :
    G.removeNonproductive.warnings
      = if G.start ∈ G.productives then [] else [.startNonproductive G.start] := by
  unfold removeNonproductive
  have quiet : G.productive.warnings = [] := warnings_eq_nil level_ne_warn_of_mem_saturate
  rw [warnings_bind_of_ok wf.outcome_productive, quiet, List.nil_append]
  -- what is dropped is told of, but this is no warning
  by_cases productive : G.start ∈ G.productives
  · simp only [productive, not_true_eq_false, if_true, if_false]
    split <;> rfl
  · simp only [productive, not_false_eq_true, if_true, if_false]
    split <;> rfl

theorem warnings_applyAll_cons {stages : List Stage}
    (ok : (stage.apply supply G).2.outcome = .ok H) :
    (applyAll (stage :: stages) supply G).warnings
      = (stage.apply supply G).2.warnings
        ++ (applyAll stages (stage.apply supply G).1 H).warnings := by
  rw [applyAll_cons]
  exact warnings_bind_of_ok ok _

/-- A stage that does not warn leaves the warnings to the others. -/
theorem warnings_applyAll_cons_of_ne {stages : List Stage} (ne : stage ≠ .removeNonproductive)
    (ok : (stage.apply supply G).2.outcome = .ok H) :
    (applyAll (stage :: stages) supply G).warnings
      = (applyAll stages (stage.apply supply G).1 H).warnings := by
  rw [warnings_applyAll_cons ok, warnings_eq_nil (level_ne_warn_of_mem_apply ne), List.nil_append]

/-! ### The start symbol -/

/-- What the stages before the pruning of what is not productive lead to. -/
def cleared (G : Grammar) : Grammar :=
  let nonempty := G.withoutEmpty G.nullables
  let proper := nonempty.withoutUnits nonempty.chains
  proper.restrict proper.accessible.contains

theorem WellFormed.cleared (wf : G.WellFormed) : G.cleared.WellFormed :=
  wf.withoutEmpty.withoutUnits.restrict_accessible

/-- The first stages keep the words of every non-terminal that they keep, except for the empty
word. -/
theorem WellFormed.generates_cleared_iff (wf : G.WellFormed) {A : Name}
    (mem : A ∈ G.cleared.nonterminals) :
    G.cleared.Generates A w ↔ w ≠ [] ∧ G.Generates A w := by
  have wfNonempty : (G.withoutEmpty G.nullables).WellFormed := wf.withoutEmpty
  have wfProper := wfNonempty.withoutUnits
  have accessible := List.contains_iff_mem.mp (List.mem_filter.mp mem).2
  calc G.cleared.Generates A w
      ↔ (Grammar.withoutUnits _ _).Generates A w :=
        wfProper.generates_restrict_accessible_iff accessible
    _ ↔ (G.withoutEmpty G.nullables).Generates A w := wfNonempty.generates_withoutUnits_iff
    _ ↔ w ≠ [] ∧ G.Generates A w := wf.generates_withoutEmpty_iff

theorem WellFormed.generates_start_cleared_iff (wf : G.WellFormed) :
    G.cleared.Generates G.start w ↔ w ≠ [] ∧ G.Generates G.start w :=
  wf.generates_cleared_iff wf.cleared.start_mem

/-- **When its productivity is asked for**, the start symbol is productive if it generated a word
other than the empty one in the beginning. -/
theorem WellFormed.start_mem_productives_cleared_iff (wf : G.WellFormed) :
    G.start ∈ G.cleared.productives ↔ ∃ w, w ≠ [] ∧ G.Generates G.start w :=
  wf.cleared.mem_productives_iff.trans (exists_congr fun _ => wf.generates_start_cleared_iff)

/-- **All stages together warn once or not at all**, and this depends on whether the start symbol is
productive when the fourth stage comes. What becomes of the binarization after it does not
matter. -/
theorem WellFormed.warnings_toNormalForm (wf : G.WellFormed) :
    G.toNormalForm.warnings
      = if G.start ∈ G.cleared.productives then [] else [.startNonproductive G.start] := by
  have wfNonempty : (G.withoutEmpty G.nullables).WellFormed := wf.withoutEmpty
  have pruning : (Stage.removeNonproductive.apply .full G.cleared).2.outcome
      = .ok G.cleared.productivePart := wf.cleared.outcome_removeNonproductive
  calc G.toNormalForm.warnings
      = (applyAll [.removeUnits, .removeInaccessible, .removeNonproductive, .binarize] .full
          (G.withoutEmpty G.nullables)).warnings :=
        warnings_applyAll_cons_of_ne nofun wf.outcome_eliminateEmpty
    _ = (applyAll [.removeInaccessible, .removeNonproductive, .binarize] .full _).warnings :=
        warnings_applyAll_cons_of_ne nofun wfNonempty.outcome_removeUnits
    _ = (applyAll [.removeNonproductive, .binarize] .full G.cleared).warnings :=
        warnings_applyAll_cons_of_ne nofun outcome_removeInaccessible
    _ = G.cleared.removeNonproductive.warnings
          ++ (G.cleared.productivePart.binarizeWith .full).2.warnings := by
        rw [warnings_applyAll_cons pruning, applyAll_cons]
        exact congrArg (_ ++ Report.warnings ·) (Report.bind_pure_eq _)
    _ = G.cleared.removeNonproductive.warnings := by
        -- the last stage is silent even if it fails
        have mild : ∀ e ∈ (Stage.binarize.apply .full G.cleared.productivePart).2.events,
            e.level ≠ .warn := level_ne_warn_of_mem_apply nofun
        have silent : (G.cleared.productivePart.binarizeWith .full).2.warnings = [] :=
          warnings_eq_nil mild
        rw [silent, List.append_nil]
    _ = _ := wf.cleared.warnings_removeNonproductive

/-! ### What all stages lead to -/

/-- All stages keep the words of the start symbol, except for the empty word, which they lose. -/
theorem WellFormed.generates_start_of_toNormalForm_iff (wf : G.WellFormed)
    (ok : G.toNormalForm.outcome = .ok H) :
    H.Generates H.start w ↔ w ≠ [] ∧ G.Generates G.start w := by
  have proper := (wf.isFinished_of_toNormalForm ok).proper
  obtain ⟨steps, rfl, _⟩ := exists_run_of_applyAll ok
  constructor
  · intro h
    have nonempty : w ≠ [] := h.ne_nil proper.nil_notMem
    exact ⟨nonempty, (wf.generates_start_run_iff nonempty).mp h⟩
  · rintro ⟨nonempty, h⟩
    exact (wf.generates_start_run_iff nonempty).mpr h

/-- In a fruitful grammar a non-terminal without bodies is one that generates nothing. -/
theorem IsFruitful.bodies_eq_nil_iff (fruitful : G.IsFruitful) {A : Name} :
    G.bodies A = [] ↔ ∀ w, ¬ G.Generates A w := by
  constructor
  · rintro none w ⟨body, mem, _⟩
    rw [none] at mem
    cases mem
  · intro nothing
    refine List.eq_nil_iff_forall_not_mem.mpr ?_
    intro body mem
    obtain ⟨w, h⟩ := fruitful.derives A body mem
    exact nothing w ⟨body, mem, h⟩

/-- **What all stages lead to is fruitful, and a warning tells if it is empty.** Every non-terminal
but the start symbol generates a non-empty word, and every body derives a word. The start symbol has
no bodies if and only if it generated no word other than the empty one, and then all stages together
give one warning, which names it; otherwise they give none. -/
theorem WellFormed.fruitful_of_toNormalForm (wf : G.WellFormed)
    (ok : G.toNormalForm.outcome = .ok H) :
    H.start = G.start ∧
      (∀ A ∈ H.nonterminals, A ≠ H.start → ∃ w, w ≠ [] ∧ H.Generates A w) ∧
      (∀ A, ∀ body ∈ H.bodies A, ∃ w, H.Derives body w) ∧
      (H.bodies H.start = [] ↔ ¬ ∃ w, w ≠ [] ∧ G.Generates G.start w) ∧
      (H.bodies H.start = [] → G.toNormalForm.warnings = [.startNonproductive G.start]) ∧
      (H.bodies H.start ≠ [] → G.toNormalForm.warnings = []) := by
  have finished := wf.isFinished_of_toNormalForm ok
  have same : H.start = G.start := by
    obtain ⟨_, _, rfl⟩ := wf.exists_binaryForm_of_toNormalForm ok
    rfl
  have empty : H.bodies H.start = [] ↔ ¬ ∃ w, w ≠ [] ∧ G.Generates G.start w := by
    rw [finished.fruitful.bodies_eq_nil_iff, not_exists]
    exact forall_congr' fun w => not_congr (wf.generates_start_of_toNormalForm_iff ok)
  refine ⟨same, ?_, finished.fruitful.derives, empty, ?_, ?_⟩
  · intro A mem ne
    obtain ⟨w, h⟩ := finished.fruitful.generates A mem ne
    exact ⟨w, h.ne_nil finished.proper.nil_notMem, h⟩
  · intro none
    have barren := mt wf.start_mem_productives_cleared_iff.mp (empty.mp none)
    rw [wf.warnings_toNormalForm, if_neg barren]
  · intro some
    have productive := wf.start_mem_productives_cleared_iff.mpr (not_not.mp (mt empty.mpr some))
    rw [wf.warnings_toNormalForm, if_pos productive]

/-- The grammar `S → A | ε`, `A → a A`, whose only word is the empty one. -/
def barren : Grammar where
  start := .ofCons 'S' []
  nonterminals := [.ofCons 'S' [], .ofCons 'A' []]
  terminals := [.ofCons 'a' []]
  rules := [
    ⟨.ofCons 'S' [], [[.nonterminal (.ofCons 'A' [])], []]⟩,
    ⟨.ofCons 'A' [], [[.terminal (.ofCons 'a' []), .nonterminal (.ofCons 'A' [])]]⟩]

/-- The empty word does not save the start symbol: its bodies are pruned, with a warning. The
grammar of brackets keeps bodies and is not warned of. -/
theorem barren_brackets_warnings :
    (barren.WellFormed ∧ ∃ H, barren.toNormalForm.outcome = .ok H ∧
      barren.Generates barren.start [] ∧ H.bodies H.start = [] ∧
      barren.toNormalForm.warnings = [.startNonproductive (.ofCons 'S' [])]) ∧
    (brackets.WellFormed ∧ ∃ H, brackets.toNormalForm.outcome = .ok H ∧
      H.bodies H.start ≠ [] ∧ brackets.toNormalForm.warnings = []) := by
  have wf : barren.WellFormed := wellFormed_iff_ofRows?_eq_ok.mpr rfl
  have ok : barren.toNormalForm.outcome = .ok (barren.run (Stage.all.map (·, .full))) := by
    decide +kernel
  have okBrackets : brackets.toNormalForm.outcome
      = .ok (brackets.run (Stage.all.map (·, .full))) := by
    decide +kernel
  have none : (barren.run (Stage.all.map (·, .full))).bodies
      (barren.run (Stage.all.map (·, .full))).start = [] := by
    decide +kernel
  have some : (brackets.run (Stage.all.map (·, .full))).bodies
      (brackets.run (Stage.all.map (·, .full))).start ≠ [] := by
    decide +kernel
  obtain ⟨_, _, _, _, warned, _⟩ := wf.fruitful_of_toNormalForm ok
  obtain ⟨_, _, _, _, _, silent⟩ := brackets_wellFormed.fruitful_of_toNormalForm okBrackets
  refine ⟨⟨wf, _, ok, ?_, none, warned none⟩, brackets_wellFormed, _, okBrackets, some, silent some⟩
  exact ⟨[], by decide, .nil⟩

end Grammar

end ContextFree
