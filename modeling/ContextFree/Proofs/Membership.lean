import ContextFree.Proofs.Chart
import ContextFree.Proofs.Run

/-!
# Charts decide membership

A chart for a grammar in normal form shows what this grammar generates, and stages keep the words
of the start symbol except for the empty word, which no chart accepts. So whenever a run of stages
from a well-formed grammar arrives at a grammar that can be read as one in normal form, the charts
of the latter decide which non-empty words the former generates
(`Grammar.WellFormed.accepts_chart_run_iff`). Neither the order of the stages matters, nor how
often each is taken, nor the names that binarization uses.
-/

namespace ContextFree

namespace Grammar

open NormalGrammar

variable {G : Grammar} {N : NormalGrammar} {steps : List (Stage × NameSupply)}

theorem WellFormed.exists_chart_of_run (wf : G.WellFormed)
    (read : ofGrammar (G.run steps) = .ok N) (w : List Name) :
    ∃ chart, N.chart w = .ok chart ∧ (chart.accepts ↔ w ≠ [] ∧ G.Generates G.start w) := by
  have wfRun := wf.run steps
  -- the grammar in normal form is the one that the run arrives at
  have same := wfRun.ofGrammar_eq_ok_iff.mp read
  have start : N.start = (G.run steps).start := congrArg Grammar.start same
  have distinct : N.toGrammar.leftSides.Nodup := same ▸ wfRun.leftSides_nodup
  obtain ⟨chart, filled, shows⟩ := exists_chart_shows distinct w
  refine ⟨chart, filled, ?_⟩
  rw [accepts_iff_generates shows, same, start]
  exact and_congr_right fun nonempty => wf.generates_start_run_iff nonempty

theorem exists_of_isOk {α ε : Type} {result : Except ε α} (ok : result.isOk = true) :
    ∃ a, result = .ok a := by
  cases result with
  | error failure => cases ok
  | ok a => exact ⟨a, rfl⟩

theorem exists_run_of_normalize (ok : G.normalize.outcome = .ok N) :
    ∃ steps, ofGrammar (G.run steps) = .ok N := by
  unfold normalize at ok
  rw [Report.outcome_bind] at ok
  obtain ⟨H, form, read⟩ := exists_of_bind_eq_ok ok
  obtain ⟨steps, rfl, _⟩ := exists_run_of_applyAll form
  exact ⟨steps, read⟩

/-- **Charts decide membership** in what a well-formed grammar generates, for non-empty words,
after any run of stages that arrives at a grammar in normal form. The normal form that all stages
in their order lead to is a case of this. -/
theorem WellFormed.accepts_chart_run_iff (wf : G.WellFormed) :
    (∀ steps N, ofGrammar (G.run steps) = .ok N → ∀ w, ∃ chart, N.chart w = .ok chart ∧
      (chart.accepts ↔ w ≠ [] ∧ G.Generates G.start w)) ∧
    ∀ N, G.normalize.outcome = .ok N → ∀ w, ∃ chart, N.chart w = .ok chart ∧
      (chart.accepts ↔ w ≠ [] ∧ G.Generates G.start w) := by
  refine ⟨fun steps N read w => wf.exists_chart_of_run read w, fun N ok w => ?_⟩
  obtain ⟨steps, read⟩ := exists_run_of_normalize ok
  exact wf.exists_chart_of_run read w

/-- The word `( )`. -/
def bracketPair : List Name := [.ofCons '(' [], .ofCons ')' []]

/-- Both a short run and all stages lead from the grammar of brackets to one in normal form, and
the charts of `( )` decide about this word. -/
theorem brackets_accepts_chart_iff :
    brackets.WellFormed ∧
      (∃ N, ofGrammar (brackets.run
          [(.binarize, .full), (.eliminateEmpty, .full), (.removeUnits, .full)]) = .ok N ∧
        ∃ chart, N.chart bracketPair = .ok chart ∧
          (chart.accepts ↔ bracketPair ≠ [] ∧ brackets.Generates brackets.start bracketPair)) ∧
      ∃ N, brackets.normalize.outcome = .ok N ∧
        ∃ chart, N.chart bracketPair = .ok chart ∧
          (chart.accepts ↔ bracketPair ≠ [] ∧
            brackets.Generates brackets.start bracketPair) := by
  have decides := brackets_wellFormed.accepts_chart_run_iff
  have ofRun : (ofGrammar (brackets.run [(.binarize, .full), (.eliminateEmpty, .full),
      (.removeUnits, .full)])).isOk = true := by decide +kernel
  have ofAll : brackets.normalize.outcome.isOk = true := by decide +kernel
  obtain ⟨N, read⟩ := exists_of_isOk ofRun
  obtain ⟨M, normal⟩ := exists_of_isOk ofAll
  refine ⟨brackets_wellFormed, ⟨N, read, ?_⟩, M, normal, ?_⟩
  · exact decides.1 _ N read bracketPair
  · exact decides.2 M normal bracketPair

end Grammar

end ContextFree
