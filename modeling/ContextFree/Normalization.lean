import ContextFree.Binarization
import ContextFree.Nullable
import ContextFree.Productive
import ContextFree.UnitChain

/-!
# Normalization

Five stages lead from a grammar to one in Chomsky normal form. Each of them is a step of its own,
so stages can also be applied singly, in any order and repeatedly, with one supply of fresh names
carried along.

* `Stage.apply` — one stage.
* `Grammar.toNormalForm` — all stages in their order; the result alone.
* `Grammar.normalFormStages` — the same with the result of every stage.
* `Grammar.run` — any sequence of stages, in which a stage that fails changes nothing.
* `Workbench` — a grammar being worked on, with its supply of names and a way back.
-/

namespace ContextFree

/-- Applies a stage to a grammar. Only binarization takes names from the supply. -/
def Stage.apply (stage : Stage) (supply : NameSupply) (G : Grammar) :
    NameSupply × Report Grammar :=
  match stage with
  | .eliminateEmpty => (supply, G.eliminateEmpty)
  | .removeUnits => (supply, G.removeUnits)
  | .removeInaccessible => (supply, G.removeInaccessible)
  | .removeNonproductive => (supply, G.removeNonproductive)
  | .binarize => G.binarizeWith supply

namespace Grammar

/-- Applies several stages, one after the other, and stops at the first that fails. -/
def applyAll : List Stage → NameSupply → Grammar → Report Grammar
  | [], _, G => pure G
  | stage :: stages, supply, G =>
    let (supply, report) := stage.apply supply G
    do
      let H ← report
      applyAll stages supply H

def toNormalForm (G : Grammar) : Report Grammar := applyAll Stage.all .full G

/-- Applies several stages and collects what each of them leads to. -/
def collectAll : List Stage → NameSupply → Grammar → Report (List (Stage × Grammar))
  | [], _, _ => pure []
  | stage :: stages, supply, G =>
    let (supply, report) := stage.apply supply G
    do
      let H ← report
      .note (.finished stage H.nonterminals.length H.productionCount)
      let later ← collectAll stages supply H
      return (stage, H) :: later

def normalFormStages (G : Grammar) : Report (List (Stage × Grammar)) :=
  collectAll Stage.all .full G

/-- The grammar after a stage, or the grammar as it is if the stage fails. -/
def after (G : Grammar) (stage : Stage) (supply : NameSupply) : Grammar :=
  match (stage.apply supply G).2.outcome with
  | .ok H => H
  | .error _ => G

/-- The grammar after a sequence of stages, each with the supply that it is given. -/
def run (G : Grammar) (steps : List (Stage × NameSupply)) : Grammar :=
  steps.foldl (fun H (stage, supply) => H.after stage supply) G

end Grammar

/-- A grammar being worked on: how it was in the beginning, how it is now, and the supply of names
that its binarizations share. -/
structure Workbench where
  initial : Grammar
  current : Grammar
  supply : NameSupply

namespace Workbench

def start (G : Grammar) : Workbench := ⟨G, G, .full⟩

/-- Puts the result of a step in the place of the current grammar; a step that fails leaves the
grammar alone. -/
def accept (bench : Workbench) (result : Report Grammar) : Workbench :=
  match result.outcome with
  | .ok H => { bench with current := H }
  | .error _ => bench

/-- Applies a stage with the shared supply, which keeps what the stage did to it. -/
def perform (bench : Workbench) (stage : Stage) : Workbench × Report Grammar :=
  let (supply, report) := stage.apply bench.supply bench.current
  ({ bench with supply }.accept report, report)

/-- Applies a step that does not touch the shared supply. -/
def performAlone (bench : Workbench) (step : Grammar → Report Grammar) :
    Workbench × Report Grammar :=
  let report := step bench.current
  (bench.accept report, report)

/-- Goes back to the beginning; the supply stays as it is. -/
def reset (bench : Workbench) : Workbench := { bench with current := bench.initial }

end Workbench

end ContextFree
