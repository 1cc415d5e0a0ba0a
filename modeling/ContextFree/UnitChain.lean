import ContextFree.Grammar.Basic
import ContextFree.Saturation

/-!
# Chains of unit productions

A production `A → B` with a single non-terminal as its body is a **unit production**. The
**chain** of `A` lists the non-terminals that `A` reaches by unit productions, `A` itself first.
Chains are found by relaxation in place: a round goes over the non-terminals once and extends
each chain by the chains of its members, making use of what the same round has extended before.

Unit productions are removed by giving to each non-terminal the other bodies of all members of
its chain; its own bodies come first.
-/

namespace ContextFree

/-- The non-terminals reached from a source. -/
structure Chain where
  source : Name
  members : List Name
deriving DecidableEq

namespace Chain

def membersOf (chains : List Chain) (A : Name) : List Name :=
  match chains.find? (·.source = A) with
  | some chain => chain.members
  | none => []

/-- A chain extended by the chains of its members. -/
def extend (chains : List Chain) (chain : Chain) : Chain :=
  { chain with
    members := (chain.members ++ chain.members.flatMap (membersOf chains)).eraseDups }

/-- Extends the chain of one source and leaves the others alone. -/
def relax (chains : List Chain) (A : Name) : List Chain :=
  chains.map fun chain => if chain.source = A then chain.extend chains else chain

/-- One round: extends all chains, one after the other. -/
def relaxAll (chains : List Chain) : List Chain := (chains.map (·.source)).foldl relax chains

end Chain

namespace Grammar

/-- The non-terminals that `A` reaches by unit productions, in any number of them. -/
inductive UnitReaches (G : Grammar) (A : Name) : Name → Prop where
  | refl : UnitReaches G A A
  | step {B C : Name} : UnitReaches G A B → [Symbol.nonterminal C] ∈ G.bodies B → UnitReaches G A C

/-- The chains of at most one unit production. -/
def unitSteps (G : Grammar) : List Chain :=
  G.rules.map fun rule =>
    ⟨rule.lhs, (rule.lhs :: rule.bodies.filterMap Body.unitTarget?).eraseDups⟩

def unitChains (G : Grammar) : Report (List Chain) :=
  saturate .unit G.nonterminals.length Chain.relaxAll G.unitSteps

/-- The bodies of several non-terminals that are not a single non-terminal, each once. -/
def properBodies (G : Grammar) (members : List Name) : List Body :=
  ((members.flatMap G.bodies).filter fun body => body.unitTarget?.isNone).eraseDups

/-- The grammar in which each source of a chain has the proper bodies of its members. -/
def withoutUnits (G : Grammar) (chains : List Chain) : Grammar :=
  { G with rules := chains.map fun chain => ⟨chain.source, G.properBodies chain.members⟩ }

def removeUnits (G : Grammar) : Report Grammar := do
  let chains ← G.unitChains
  .notes <| (chains.filter fun chain => 1 < chain.members.length).map fun chain =>
    .unitChain chain.source chain.members
  let H := G.withoutUnits chains
  .note (.unitsRemoved G.productionCount H.productionCount)
  return H

end Grammar

end ContextFree
