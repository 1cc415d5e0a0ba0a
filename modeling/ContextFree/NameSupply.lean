import ContextFree.Grammar.Basic
import ContextFree.Report

/-!
# The supply of fresh names

Numbered names are handed out in ascending order. A **supply** remembers the next number; it only
ever moves forward, so one supply carried through several calls never hands out a name twice.
Numbers are 64 bits wide: the last of them cannot be used up, because the number after it could
not be remembered.

A name that is in use already is not handed out (`NameSupply.mint`), and the supply has then moved
past it. Running out of numbers leaves the supply at the last number.
-/

namespace ContextFree

/-- The numbered names from `next` on are still to be handed out. -/
structure NameSupply where
  next : Nat
deriving DecidableEq

namespace NameSupply

def full : NameSupply := ⟨0⟩

def limit : Nat := UInt64.size

def advance (supply : NameSupply) (least : Nat) : NameSupply := ⟨max supply.next least⟩

/-- Hands out the next name, unless it is one of the given names or there are none left. -/
def mint (nonterminals terminals : List Name) (supply : NameSupply) :
    NameSupply × Except Failure Name :=
  let name := Name.numbered supply.next
  -- the number after this one has to be remembered before the name is looked at
  if limit ≤ supply.next + 1 then (supply, .error .namesExhausted)
  else if name ∈ nonterminals ∨ name ∈ terminals then
    (⟨supply.next + 1⟩, .error (.nameTaken name))
  else (⟨supply.next + 1⟩, .ok name)

end NameSupply

end ContextFree
