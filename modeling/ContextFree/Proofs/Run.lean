import ContextFree.Grammar.Source
import ContextFree.Normalization
import ContextFree.Proofs.BinaryForm
import ContextFree.Proofs.Nullable
import ContextFree.Proofs.Pruning
import ContextFree.Proofs.UnitChain

/-!
# Runs of stages

From a well-formed grammar each stage that succeeds leads to a grammar that can be written down
(`Grammar.Leads`). Whatever is shown of this relation, by one case for each stage, holds of runs as
well (`Grammar.WellFormed.run_induction`), because a stage that fails changes nothing. Here this is
done for what all runs keep:

* the grammar stays well formed (`Grammar.WellFormed.run`);
* a non-terminal that is declared before and after a stage generates the same words but for the
  empty one (`Grammar.Leads.generates_iff`), and so does the start symbol in the long run
  (`Grammar.WellFormed.generates_start_run_iff`).

The stages put their results together without looking at them again. That all grammars along a run
are well formed says that nothing would come of looking: each of them is what its own parts declare
(`Grammar.IsConstructed.wellFormed_along_run`).

Applying all stages in their order, and stopping at a failure, is a run if there is no failure
(`Grammar.exists_run_of_applyAll`).
-/

namespace ContextFree

namespace Grammar

variable {G H K : Grammar} {stage : Stage} {supply : NameSupply} {A : Name} {w : List Name}

/-! ### Single stages -/

/-- What the stages lead to when they succeed on a well-formed grammar. -/
inductive Leads (G : Grammar) : Stage → Grammar → Prop where
  | eliminateEmpty : Leads G .eliminateEmpty (G.withoutEmpty G.nullables)
  | removeUnits : Leads G .removeUnits (G.withoutUnits G.chains)
  | removeInaccessible : Leads G .removeInaccessible (G.restrict G.accessible.contains)
  | removeNonproductive : Leads G .removeNonproductive G.productivePart
  | binarize {k : Nat} (room : G.HasRoom k) : Leads G .binarize (G.binaryForm k)

/-- **Stages lead where they should.** -/
theorem WellFormed.leads_of_apply (wf : G.WellFormed)
    (ok : (stage.apply supply G).2.outcome = .ok H) : G.Leads stage H := by
  cases stage with
  | eliminateEmpty =>
    cases wf.outcome_eliminateEmpty.symm.trans ok
    exact .eliminateEmpty
  | removeUnits =>
    cases wf.outcome_removeUnits.symm.trans ok
    exact .removeUnits
  | removeInaccessible =>
    cases outcome_removeInaccessible.symm.trans ok
    exact .removeInaccessible
  | removeNonproductive =>
    cases wf.outcome_removeNonproductive.symm.trans ok
    exact .removeNonproductive
  | binarize =>
    obtain ⟨room, rfl⟩ := binarizeWith_eq_ok ok
    exact .binarize room

theorem Leads.start_eq (leads : G.Leads stage H) : H.start = G.start := by
  cases leads <;> rfl

theorem Leads.terminals_eq (leads : G.Leads stage H) : H.terminals = G.terminals := by
  cases leads <;> rfl

theorem Leads.wellFormed (wf : G.WellFormed) (leads : G.Leads stage H) : H.WellFormed := by
  cases leads with
  | eliminateEmpty => exact wf.withoutEmpty
  | removeUnits => exact wf.withoutUnits
  | removeInaccessible => exact wf.restrict_accessible
  | removeNonproductive => exact wf.productivePart
  | binarize room => exact WellFormed.binaryForm wf room

/-- **Stages keep the words of non-terminals**, except for the empty word. -/
theorem Leads.generates_iff (wf : G.WellFormed) (leads : G.Leads stage H)
    (old : A ∈ G.nonterminals) (kept : A ∈ H.nonterminals) (nonempty : w ≠ []) :
    H.Generates A w ↔ G.Generates A w := by
  cases leads with
  | eliminateEmpty => exact wf.generates_withoutEmpty_iff.trans (and_iff_right nonempty)
  | removeUnits => exact wf.generates_withoutUnits_iff
  | removeInaccessible =>
    -- what is kept is accessible, and nothing is known of the others
    have accessible := List.contains_iff_mem.mp (List.mem_filter.mp kept).2
    exact wf.generates_restrict_accessible_iff accessible
  | removeNonproductive => exact wf.generates_productivePart_iff
  | binarize room => exact generates_binaryForm_iff_of_mem wf room old

theorem after_of_ok (ok : (stage.apply supply G).2.outcome = .ok H) :
    G.after stage supply = H := by
  rw [after, ok]

/-- Only binarization can fail. -/
theorem WellFormed.exists_outcome_eq_ok (wf : G.WellFormed) (ne : stage ≠ .binarize)
    (supply : NameSupply) : ∃ H, (stage.apply supply G).2.outcome = .ok H := by
  cases stage with
  | eliminateEmpty => exact ⟨_, wf.outcome_eliminateEmpty⟩
  | removeUnits => exact ⟨_, wf.outcome_removeUnits⟩
  | removeInaccessible => exact ⟨_, outcome_removeInaccessible⟩
  | removeNonproductive => exact ⟨_, wf.outcome_removeNonproductive⟩
  | binarize => exact absurd rfl ne

/-- Binarization fails for want of names, and for no other reason. -/
theorem cases_of_binarizeWith_eq_error {failure : Failure}
    (error : (G.binarizeWith supply).2.outcome = .error failure) :
    (∃ m, G.IsTaken m ∧ failure = .nameTaken (.numbered m)) ∨ failure = .namesExhausted := by
  rw [outcome_binarizeWith rfl] at error
  exact NameSupply.cases_of_introduce_eq_error (eq_error_of_map_eq_error error)

theorem WellFormed.cases_of_apply_eq_error (wf : G.WellFormed) {failure : Failure}
    (error : (stage.apply supply G).2.outcome = .error failure) :
    (∃ m, G.IsTaken m ∧ failure = .nameTaken (.numbered m)) ∨ failure = .namesExhausted := by
  by_cases binarizes : stage = .binarize
  · subst binarizes
    exact cases_of_binarizeWith_eq_error error
  · -- all other stages succeed
    obtain ⟨H, ok⟩ := wf.exists_outcome_eq_ok binarizes supply
    rw [ok] at error
    cases error

theorem WellFormed.leads_after (wf : G.WellFormed) (stage : Stage) (ne : stage ≠ .binarize)
    (supply : NameSupply) : G.Leads stage (G.after stage supply) := by
  obtain ⟨H, ok⟩ := wf.exists_outcome_eq_ok ne supply
  rw [after_of_ok ok]
  exact wf.leads_of_apply ok

/-- A stage leads to another grammar or fails and changes nothing. -/
theorem WellFormed.leads_after_or_eq (wf : G.WellFormed) (stage : Stage) (supply : NameSupply) :
    G.Leads stage (G.after stage supply) ∨ G.after stage supply = G := by
  cases outcome : (stage.apply supply G).2.outcome with
  | ok H =>
    rw [after_of_ok outcome]
    exact .inl (wf.leads_of_apply outcome)
  | error failure =>
    rw [after, outcome]
    exact .inr rfl

/-! ### Runs -/

variable {steps more : List (Stage × NameSupply)}

theorem run_cons (G : Grammar) (step : Stage × NameSupply) (steps : List (Stage × NameSupply)) :
    G.run (step :: steps) = (G.after step.1 step.2).run steps := rfl

theorem run_append : G.run (steps ++ more) = (G.run steps).run more := List.foldl_append

/-- **What stages keep, runs keep.** -/
theorem WellFormed.run_induction {P : Grammar → Prop} (wf : G.WellFormed)
    (step : ∀ H stage K, H.WellFormed → H.Leads stage K → P H → P K) (init : P G)
    (steps : List (Stage × NameSupply)) : P (G.run steps) := by
  induction steps generalizing G with
  | nil => exact init
  | cons first steps ih =>
    rw [run_cons]
    rcases wf.leads_after_or_eq first.1 first.2 with leads | eq
    · have kept := step _ _ _ wf leads init
      exact ih (leads.wellFormed wf) kept
    · -- the stage has failed
      rw [eq]
      exact ih wf init

theorem WellFormed.run (wf : G.WellFormed) (steps : List (Stage × NameSupply)) :
    (G.run steps).WellFormed :=
  wf.run_induction (fun _ _ _ wf leads _ => leads.wellFormed wf) wf steps

/-- **Runs keep the words of the start symbol**, except for the empty word. -/
theorem WellFormed.generates_start_run_iff (wf : G.WellFormed) (nonempty : w ≠ []) :
    (G.run steps).Generates (G.run steps).start w ↔ G.Generates G.start w := by
  have step : ∀ (H : Grammar) (stage : Stage) (K : Grammar), H.WellFormed → H.Leads stage K →
      (H.Generates H.start w ↔ G.Generates G.start w) →
      (K.Generates K.start w ↔ G.Generates G.start w) := by
    intro H stage K wfH leads words
    -- the start symbol is declared before and after the stage
    have start := leads.start_eq
    have kept : H.start ∈ K.nonterminals := start ▸ (leads.wellFormed wfH).start_mem
    rw [start, leads.generates_iff wfH wfH.start_mem kept nonempty]
    exact words
  exact wf.run_induction step Iff.rfl steps

/-- A run that takes several stages in an order takes the first of them, and then the others. -/
theorem exists_of_cons_sublist {stages : List Stage}
    (order : (stage :: stages).Sublist (steps.map (·.1))) :
    ∃ before supply later, steps = before ++ (stage, supply) :: later ∧
      stages.Sublist (later.map (·.1)) := by
  induction steps with
  | nil => cases order
  | cons step steps ih =>
    cases order with
    | cons _ order =>
      -- the stage that is looked for comes later
      obtain ⟨before, supply, later, rfl, rest⟩ := ih order
      exact ⟨step :: before, supply, later, rfl, rest⟩
    | cons_cons _ rest => exact ⟨[], step.2, steps, rfl, rest⟩

/-- A step of this stage succeeds somewhere in the run. -/
def SucceedsIn (G : Grammar) (stage : Stage) (steps : List (Stage × NameSupply)) : Prop :=
  ∃ before supply later, steps = before ++ (stage, supply) :: later ∧
    ∃ H, (stage.apply supply (G.run before)).2.outcome = .ok H

theorem SucceedsIn.cons {step : Stage × NameSupply}
    (h : (G.after step.1 step.2).SucceedsIn stage steps) : G.SucceedsIn stage (step :: steps) := by
  obtain ⟨before, supply, later, rfl, ok⟩ := h
  exact ⟨step :: before, supply, later, rfl, ok⟩

theorem SucceedsIn.append (h : G.SucceedsIn stage steps) : G.SucceedsIn stage (steps ++ more) := by
  obtain ⟨before, supply, later, rfl, ok⟩ := h
  exact ⟨before, supply, later ++ more, by rw [List.append_assoc, List.cons_append], ok⟩

/-! ### Grammars along a run -/

/-- The grammar comes from one of the constructors: it is declared by rows or by names, or read from
a text. -/
inductive IsConstructed (G : Grammar) : Prop where
  | ofRows {nonterminals terminals : List Name} {rows : List (Rule Body)} {start : Name}
      (ok : ofRows? nonterminals terminals rows start = .ok G)
  | ofNames {nonterminals terminals : List String} {rows : List (String × List (List String))}
      {start : String} (ok : ofNames? nonterminals terminals rows start = .ok G)
  | ofText {text : String} (ok : (ofText text).outcome = .ok G)

theorem IsConstructed.wellFormed (constructed : G.IsConstructed) : G.WellFormed := by
  cases constructed with
  | ofRows ok => exact ofRows?_wellFormed ok
  | ofNames ok => exact ofNames?_wellFormed ok
  | ofText ok => exact ofText_wellFormed ok

/-- The grammars along a run, from the one it starts with to the one it arrives at. -/
def along (G : Grammar) : List (Stage × NameSupply) → List Grammar
  | [] => [G]
  | (stage, supply) :: steps => G :: (G.after stage supply).along steps

/-- A grammar is met along a run if a beginning of the run arrives at it. -/
theorem mem_along_iff : H ∈ G.along steps ↔ ∃ before, before <+: steps ∧ G.run before = H := by
  induction steps generalizing G with
  | nil =>
    rw [along, List.mem_singleton]
    refine ⟨fun same => ⟨[], List.nil_prefix, same.symm⟩, ?_⟩
    rintro ⟨before, start, rfl⟩
    rw [List.prefix_nil.mp start]
    rfl
  | cons step steps ih =>
    rw [along, List.mem_cons, ih]
    refine ⟨?_, ?_⟩
    · rintro (rfl | ⟨before, start, rfl⟩)
      · exact ⟨[], List.nil_prefix, rfl⟩
      · exact ⟨step :: before, (List.prefix_cons_inj step).mpr start, rfl⟩
    · rintro ⟨before, start, rfl⟩
      cases before with
      | nil => exact .inl rfl
      | cons first before =>
        -- a beginning that is not empty takes the first step of the run
        obtain ⟨rfl, rest⟩ := List.cons_prefix_cons.mp start
        exact .inr ⟨before, rest, rfl⟩

theorem WellFormed.start_terminals_run_eq (wf : G.WellFormed) (steps : List (Stage × NameSupply)) :
    (G.run steps).start = G.start ∧ (G.run steps).terminals = G.terminals := by
  refine wf.run_induction (P := fun K => K.start = G.start ∧ K.terminals = G.terminals) ?_
    ⟨rfl, rfl⟩ steps
  rintro H stage K _ leads ⟨start, terminals⟩
  exact ⟨leads.start_eq.trans start, leads.terminals_eq.trans terminals⟩

/-- **All grammars along a run are well formed**, if the first comes from a constructor, and start
symbol and terminals stay what they were. Declaring any of these grammars by its own parts would
find no fault and would change nothing. -/
theorem IsConstructed.wellFormed_along_run (constructed : G.IsConstructed)
    (steps : List (Stage × NameSupply)) :
    ∀ H ∈ G.along steps, H.WellFormed ∧ H.start = G.start ∧ H.terminals = G.terminals ∧
      ofRows? H.nonterminals H.terminals H.rules H.start = .ok H := by
  intro H mem
  obtain ⟨before, _, rfl⟩ := mem_along_iff.mp mem
  have wf : (G.run before).WellFormed := constructed.wellFormed.run before
  obtain ⟨start, terminals⟩ := constructed.wellFormed.start_terminals_run_eq before
  exact ⟨wf, start, terminals, wellFormed_iff_ofRows?_eq_ok.mp wf⟩

/-- A supply with the last number, which has no name to hand out. -/
def exhausted : NameSupply := ⟨NameSupply.limit - 1⟩

/-- A run on which a binarization finds no numbers left. -/
def interruptedSteps : List (Stage × NameSupply) :=
  [(.removeUnits, .full), (.binarize, exhausted), (.eliminateEmpty, .full)]

/-- The grammar of brackets is declared by its own parts, and a run goes on after a failure. -/
theorem brackets_wellFormed_along_run :
    brackets.IsConstructed ∧
      brackets.run interruptedSteps ∈ brackets.along (interruptedSteps ++ [(.binarize, .full)]) ∧
      (brackets.run interruptedSteps).WellFormed ∧
      (brackets.run interruptedSteps).terminals = brackets.terminals := by
  have constructed : brackets.IsConstructed :=
    .ofRows (wellFormed_iff_ofRows?_eq_ok.mp brackets_wellFormed)
  have met : brackets.run interruptedSteps ∈
      brackets.along (interruptedSteps ++ [(.binarize, .full)]) :=
    mem_along_iff.mpr ⟨interruptedSteps, List.prefix_append _ _, rfl⟩
  obtain ⟨wf, _, terminals, _⟩ := constructed.wellFormed_along_run _ _ met
  exact ⟨constructed, met, wf, terminals⟩

/-! ### All stages in a row -/

theorem applyAll_cons (stages : List Stage) :
    applyAll (stage :: stages) supply G
      = (stage.apply supply G).2 >>= applyAll stages (stage.apply supply G).1 := rfl

/-- **Applying stages in a row is a run**, if none of them fails. -/
theorem exists_run_of_applyAll {stages : List Stage}
    (ok : (applyAll stages supply G).outcome = .ok H) :
    ∃ steps, G.run steps = H ∧ steps.map (·.1) = stages ∧
      ∀ stage ∈ stages, G.SucceedsIn stage steps := by
  induction stages generalizing G supply with
  | nil =>
    cases ok
    exact ⟨[], rfl, rfl, nofun⟩
  | cons first stages ih =>
    rw [applyAll_cons, Report.outcome_bind] at ok
    cases outcome : (first.apply supply G).2.outcome with
    | error failure =>
      rw [outcome] at ok
      cases ok
    | ok K =>
      -- the others are applied to what the first one leads to
      rw [outcome] at ok
      obtain ⟨steps, rfl, same, succeed⟩ := ih ok
      have reached : G.after first supply = K := after_of_ok outcome
      refine ⟨(first, supply) :: steps, ?_, ?_, fun stage mem => ?_⟩
      · rw [run_cons, reached]
      · rw [List.map_cons, same]
      · rcases List.mem_cons.mp mem with rfl | mem
        · exact ⟨[], supply, steps, rfl, K, outcome⟩
        · refine SucceedsIn.cons ?_
          rw [reached]
          exact succeed stage mem

end Grammar

end ContextFree
