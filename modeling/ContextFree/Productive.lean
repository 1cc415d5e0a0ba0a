import ContextFree.Accessible
import ContextFree.Sweep

/-!
# Productive non-terminals

A non-terminal is **productive** if it derives some word over the terminals. The others are of
no use: they are left out together with their rules, and so is every body that mentions one of
them. The start symbol stays even if it is not productive, which is worth a warning; it then has
no bodies.
-/

namespace ContextFree

/-- A body consists of terminals and of non-terminals known to be productive. -/
def Body.isProductive (productive : List Name) (body : Body) : Bool :=
  body.all fun
    | .terminal _ => true
    | .nonterminal A => productive.contains A

namespace Grammar

/-- The productive non-terminals, in the order in which sweeps find them. -/
def productive (G : Grammar) : Report (List Name) :=
  saturate .productive G.nonterminals.length (G.sweep Body.isProductive) []

/-- The grammar with the bodies that consist of terminals and of the given non-terminals. -/
def withBodiesOver (G : Grammar) (productive : List Name) : Grammar :=
  { G with rules := G.rules.map fun rule =>
      ⟨rule.lhs, rule.bodies.filter (Body.isProductive productive)⟩ }

def removeNonproductive (G : Grammar) : Report Grammar := do
  let productive ← G.productive
  let keep := fun A => productive.contains A || A = G.start
  let dropped := G.nonterminals.filter fun A => !keep A
  if dropped ≠ [] then .note (.droppingNonproductive dropped)
  if G.start ∉ productive then .note (.startNonproductive G.start)
  return (G.restrict keep).withBodiesOver productive

end Grammar

end ContextFree
