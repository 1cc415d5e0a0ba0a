import ContextFree.Grammar.Basic
import ContextFree.Saturation

/-!
# Accessible non-terminals

A non-terminal is **accessible** if it can be reached from the start symbol by going from a
left-hand side to the non-terminals in its bodies. The search goes outwards from the start
symbol: a round appends the non-terminals that the names found so far mention, in the order in
which they are first mentioned. Names at a smaller distance from the start symbol therefore stand
before those at a greater one.

The non-terminals that are not accessible are left out together with their rules. Terminals stay
declared even if no body mentions them any more.
-/

namespace ContextFree

namespace Grammar

/-- A non-terminal can be reached from the start symbol in `n` steps, each from a left-hand side
to a non-terminal in one of its bodies. -/
inductive ReachedIn (G : Grammar) : Nat → Name → Prop where
  | start : ReachedIn G 0 G.start
  | step {n : Nat} {A B : Name} : ReachedIn G n A → B ∈ G.mentions A → ReachedIn G (n + 1) B

/-- A non-terminal can be reached from the start symbol. -/
def IsAccessible (G : Grammar) (A : Name) : Prop := ∃ n, G.ReachedIn n A

/-- The names found so far, and then those that they mention. -/
def widen (G : Grammar) (found : List Name) : List Name :=
  (found ++ found.flatMap G.mentions).eraseDups

/-- The accessible non-terminals in the order in which the search finds them. Each round that
finds something goes through a rule that no round before has gone through, so there need not be
more rounds than rules. -/
def accessible (G : Grammar) : List Name := (settle G.widen G.rules.length [G.start]).2

/-- The grammar without the non-terminals that are not to be kept, and without their rules. -/
def restrict (G : Grammar) (keep : Name → Bool) : Grammar :=
  { G with
    nonterminals := G.nonterminals.filter keep
    rules := G.rules.filter fun rule => keep rule.lhs }

def removeInaccessible (G : Grammar) : Report Grammar := do
  let accessible := G.accessible
  let dropped := G.nonterminals.filter fun A => !accessible.contains A
  if dropped ≠ [] then .note (.droppingInaccessible dropped)
  return G.restrict accessible.contains

end Grammar

end ContextFree
