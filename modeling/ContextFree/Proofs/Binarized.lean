import ContextFree.Proofs.Unchanged

/-!
# Runs after a binarization

A binarization that succeeds leaves bodies of two or more symbols only if they are pairs of
non-terminals, and no stage spoils that (`Grammar.IsBinary.run`). Hence a run has at most one
binarization that does something. Any later one finds nothing to isolate and nothing to peel, asks
for no name, and so succeeds whatever the state of its supply is.

Fresh names come into a grammar by a binarization that succeeds and in no other way
(`Grammar.WellFormed.succeedsIn_or_subset`). As long as there has been none, the declared names are
those of the first grammar, or some of them, and a numbered name can be taken only if it was one of
these. After the first success no name is asked for. So a run that starts without numbered names
never meets one that is taken (`Grammar.WellFormed.binarize_run`).
-/

namespace ContextFree

namespace Grammar

variable {G H : Grammar} {stage : Stage} {supply : NameSupply}
  {steps : List (Stage × NameSupply)}

/-! ### Where names come from -/

/-- Only binarization declares non-terminals. -/
theorem Leads.nonterminals_subset (leads : G.Leads stage H) (ne : stage ≠ .binarize) :
    ∀ A ∈ H.nonterminals, A ∈ G.nonterminals := by
  intro A mem
  cases leads with
  | eliminateEmpty => exact mem
  | removeUnits => exact mem
  | removeInaccessible => exact (List.mem_filter.mp mem).1
  | removeNonproductive => exact (List.mem_filter.mp mem).1
  | binarize room => exact absurd rfl ne

/-- A step that is no binarization, or is one that fails, declares no non-terminals. -/
theorem WellFormed.succeedsIn_or_subset_after (wf : G.WellFormed) (stage : Stage)
    (supply : NameSupply) :
    (stage = .binarize ∧ ∃ H, (stage.apply supply G).2.outcome = .ok H) ∨
      ∀ A ∈ (G.after stage supply).nonterminals, A ∈ G.nonterminals := by
  cases outcome : (stage.apply supply G).2.outcome with
  | error failure =>
    have same : G.after stage supply = G := by
      rw [after, outcome]
    rw [same]
    exact .inr fun A mem => mem
  | ok H =>
    by_cases binarizes : stage = .binarize
    · exact .inl ⟨binarizes, H, rfl⟩
    · rw [after_of_ok outcome]
      exact .inr ((wf.leads_of_apply outcome).nonterminals_subset binarizes)

/-- **Names come from binarizations**: on a run without one that succeeds, no non-terminal is
declared that was not declared before. -/
theorem WellFormed.succeedsIn_or_subset (wf : G.WellFormed) (steps : List (Stage × NameSupply)) :
    G.SucceedsIn .binarize steps ∨ ∀ A ∈ (G.run steps).nonterminals, A ∈ G.nonterminals := by
  induction steps generalizing G with
  | nil => exact .inr fun A mem => mem
  | cons step steps ih =>
    obtain ⟨stage, supply⟩ := step
    have wfAfter : (G.after stage supply).WellFormed := wf.run [(stage, supply)]
    rcases wf.succeedsIn_or_subset_after stage supply with ⟨rfl, ok⟩ | first
    · exact .inl ⟨[], supply, steps, rfl, ok⟩
    · rcases ih wfAfter with later | rest
      · exact .inl (SucceedsIn.cons later)
      · exact .inr fun A mem => first A (rest A mem)

/-- A run without a binarization that succeeds takes no numbered name. -/
theorem WellFormed.isTaken_of_isTaken_run (wf : G.WellFormed)
    (subset : ∀ A ∈ (G.run steps).nonterminals, A ∈ G.nonterminals) {m : Nat}
    (taken : (G.run steps).IsTaken m) : G.IsTaken m := by
  obtain ⟨_, terminals⟩ := wf.start_terminals_run_eq steps
  rcases taken with nonterminal | terminal
  · exact .inl (subset _ nonterminal)
  · rw [terminals] at terminal
    exact .inr terminal

/-! ### After the first success -/

/-- After a binarization that succeeds, binarization changes nothing. -/
theorem SucceedsIn.binarizeWith_eq (succeeds : G.SucceedsIn .binarize steps) (wf : G.WellFormed)
    (supply : NameSupply) :
    (G.run steps).binarizeWith supply =
      (supply.advance (G.run steps).nonterminals.length,
        ⟨[.binarized 0 0], .ok (G.run steps)⟩) :=
  (wf.isBinary_run succeeds).binarizeWith_eq (wf.run steps) supply

/-- A name is reported as taken only if it was declared from the beginning. -/
theorem WellFormed.isTaken_of_nameTaken (wf : G.WellFormed) {name : Name}
    (error : (stage.apply supply (G.run steps)).2.outcome = .error (.nameTaken name)) :
    ∃ m, name = .numbered m ∧ G.IsTaken m := by
  have wfRun := wf.run steps
  -- only a binarization can have reported it, since all other stages succeed
  have binarizes : stage = .binarize := by
    by_contra ne
    obtain ⟨H, ok⟩ := wfRun.exists_outcome_eq_ok ne supply
    cases ok.symm.trans error
  subst binarizes
  rcases wf.succeedsIn_or_subset steps with succeeds | subset
  · -- after a success there is nothing to report
    have ok : ((G.run steps).binarizeWith supply).2.outcome = .ok (G.run steps) := by
      rw [succeeds.binarizeWith_eq wf]
    cases ok.symm.trans error
  · rcases cases_of_binarizeWith_eq_error error with ⟨m, taken, same⟩ | same
    · cases same
      exact ⟨m, rfl, wf.isTaken_of_isTaken_run subset taken⟩
    · cases same

/-- **At most one binarization does something.** After the first one that succeeds, every later one
succeeds whatever its supply, hands out no name and gives back what it is given, its order
included. And if the first grammar declares no numbered name, no step of any run reports that a
name is taken. -/
theorem WellFormed.binarize_run (wf : G.WellFormed) :
    (∀ steps, G.SucceedsIn .binarize steps → ∀ supply,
      Stage.binarize.apply supply (G.run steps) =
        (supply.advance (G.run steps).nonterminals.length,
          ⟨[.binarized 0 0], .ok (G.run steps)⟩)) ∧
    ((∀ m, ¬ G.IsTaken m) → ∀ steps (stage : Stage) supply name,
      (stage.apply supply (G.run steps)).2.outcome ≠ .error (.nameTaken name)) := by
  refine ⟨fun steps succeeds supply => succeeds.binarizeWith_eq wf supply, ?_⟩
  intro free steps stage supply name error
  obtain ⟨m, _, taken⟩ := wf.isTaken_of_nameTaken error
  exact free m taken

theorem brackets_not_isTaken (m : Nat) : ¬ brackets.IsTaken m := by
  simp [IsTaken, brackets, Name.numbered_ne_ofCons]

/-- A run on which other stages come after a binarization. -/
def laterSteps : List (Stage × NameSupply) :=
  [(.binarize, .full), (.eliminateEmpty, .full), (.removeNonproductive, .full)]

/-- The grammar of brackets is binarized, made free of empty bodies and pruned. Another
binarization needs no number, and none is left. -/
theorem brackets_binarize_run :
    brackets.WellFormed ∧ (∀ m, ¬ brackets.IsTaken m) ∧
      brackets.SucceedsIn .binarize laterSteps ∧
      (Stage.binarize.apply exhausted (brackets.run laterSteps)).2.outcome =
        .ok (brackets.run laterSteps) ∧
      ∀ name, (Stage.binarize.apply exhausted (brackets.run interruptedSteps)).2.outcome ≠
        .error (.nameTaken name) := by
  obtain ⟨unchanged, never⟩ := brackets_wellFormed.binarize_run
  have succeeds : brackets.SucceedsIn .binarize laterSteps :=
    ⟨[], .full, _, rfl, brackets.binaryForm 1, by decide +kernel⟩
  refine ⟨brackets_wellFormed, brackets_not_isTaken, succeeds, ?_, ?_⟩
  · exact congrArg (·.2.outcome) (unchanged laterSteps succeeds exhausted)
  · exact never brackets_not_isTaken interruptedSteps .binarize exhausted

end Grammar

end ContextFree
