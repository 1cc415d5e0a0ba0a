import ContextFree.Grammar.Basic

/-!
# Sweeps from the bodies up

The nullable and the productive non-terminals are found in the same way: a non-terminal is found
once one of its bodies is made up of what has been found before. A **sweep** goes over the rules
once, from top to bottom; what it finds in one rule counts for the rules below it.

What makes a body `ripe` is left open here. The two uses differ only in whether terminals count.
-/

namespace ContextFree

namespace Grammar

/-- One step of a sweep: the left-hand side of a rule joins the names found so far if one of its
bodies is ripe. -/
def sweepRule (ripe : List Name → Body → Bool) (found : List Name) (rule : Rule Body) :
    List Name :=
  if rule.lhs ∈ found then found
  else if rule.bodies.any (ripe found) then found ++ [rule.lhs]
  else found

def sweep (G : Grammar) (ripe : List Name → Body → Bool) (found : List Name) : List Name :=
  G.rules.foldl (sweepRule ripe) found

end Grammar

end ContextFree
