import ContextFree.Saturation
import ContextFree.Sweep

/-!
# Nullable non-terminals and empty bodies

A non-terminal is **nullable** if it derives the empty word. Empty bodies are eliminated by
making the nullable occurrences in all other bodies optional: a body is replaced by its
**variants**, one for each choice of nullable occurrences to leave out, with the choices in
alphabetical order, so to speak: present comes before absent, and the last occurrence varies
fastest. The variant with nothing left in it is dropped.

No exception is made for the start symbol, so the grammar loses the empty word.
-/

namespace ContextFree

/-- A body vanishes if it consists of nullable non-terminals. -/
def Body.vanishes (nullable : List Name) (body : Body) : Bool :=
  body.all fun
    | .terminal _ => false
    | .nonterminal A => nullable.contains A

/-- All ways to leave out some of the nullable occurrences of a body. -/
def Body.variants (nullable : List Name) : Body → List Body
  | [] => [[]]
  | .terminal a :: rest => (Body.variants nullable rest).map (.terminal a :: ·)
  | .nonterminal A :: rest =>
    let shorter := Body.variants nullable rest
    shorter.map (.nonterminal A :: ·) ++ if nullable.contains A then shorter else []

namespace Grammar

/-- The nullable non-terminals, in the order in which sweeps find them. -/
def nullable (G : Grammar) : Report (List Name) :=
  saturate .nullable G.nonterminals.length (G.sweep Body.vanishes) []

/-- The variants of several bodies that have something in them, each once. -/
def nonemptyVariants (nullable : List Name) (bodies : List Body) : List Body :=
  (((bodies.filter (· ≠ [])).flatMap (Body.variants nullable)).filter (· ≠ [])).eraseDups

/-- The grammar with the given non-terminals made optional wherever they occur, and without empty
bodies. -/
def withoutEmpty (G : Grammar) (nullable : List Name) : Grammar :=
  { G with rules := G.rules.map fun rule => ⟨rule.lhs, nonemptyVariants nullable rule.bodies⟩ }

def eliminateEmpty (G : Grammar) : Report Grammar := do
  let nullable ← G.nullable
  .note (.eliminating nullable)
  return G.withoutEmpty nullable

end Grammar

end ContextFree
