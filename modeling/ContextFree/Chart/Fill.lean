import ContextFree.Chart.Basic
import ContextFree.NormalForm

/-!
# Filling a chart

For a grammar in Chomsky normal form a chart is filled from short stretches of the word to long
ones. The stretches of one symbol hold the non-terminals that have this symbol as a body. A longer
stretch is cut in two at every place; it holds the non-terminals that have as a body a pair of
which the left one is in the cell of the left part and the right one in that of the right part.
The cells of both parts are complete by then, because both are shorter.
-/

namespace ContextFree

namespace NormalGrammar

def parentsOfLeaf (N : NormalGrammar) (a : Name) : List Name :=
  (N.rules.filter (·.bodies.contains (.leaf a))).map (·.lhs)

/-- Whether a body is a pair over two cells. -/
def spans (left right : List Name) : NormalBody → Bool
  | .leaf _ => false
  | .pair B C => left.contains B && right.contains C

def parentsOfPair (N : NormalGrammar) (left right : List Name) : List Name :=
  (N.rules.filter (·.bodies.any (spans left right))).map (·.lhs)

/-- Enters the stretches of one symbol. -/
def fillLeaves (N : NormalGrammar) (chart : Chart) : Except IndexFault Chart :=
  chart.word.zipIdx.foldlM (fun chart (a, i) => chart.add i i (N.parentsOfLeaf a)) chart

/-- Enters what follows for the stretch from `i` to `j` from cutting it behind `k`. -/
def fillCut (N : NormalGrammar) (i j : Nat) (chart : Chart) (k : Nat) :
    Except IndexFault Chart := do
  -- the parts before and behind the cut
  let left ← chart.cell i k
  let right ← chart.cell (k + 1) j
  chart.add i j (N.parentsOfPair left right)

/-- Enters the stretch from `i` to `j`, cut at every place. -/
def fillCell (N : NormalGrammar) (chart : Chart) (i j : Nat) : Except IndexFault Chart :=
  (List.range' i (j - i)).foldlM (N.fillCut i j) chart

/-- Enters the stretches that end `d` places after they begin, in a word of `n` symbols. -/
def fillDiagonal (N : NormalGrammar) (n : Nat) (chart : Chart) (d : Nat) :
    Except IndexFault Chart :=
  (List.range (n - d)).foldlM (fun chart i => N.fillCell chart i (i + d)) chart

def chart (N : NormalGrammar) (word : List Name) : Except IndexFault Chart := do
  let leaves ← N.fillLeaves (.blank word N.start)
  (List.range' 1 (word.length - 1)).foldlM (N.fillDiagonal word.length) leaves

end NormalGrammar

end ContextFree
