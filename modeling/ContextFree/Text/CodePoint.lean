/-!
# Classes of characters

A class of characters is given by the ranges of code points that it covers, each range with both
of its ends, in ascending order.
-/

namespace ContextFree

namespace Text

/-- Ranges of code points, both ends included. -/
abbrev Ranges := List (Nat × Nat)

def Ranges.covers (ranges : Ranges) (c : Char) : Bool :=
  ranges.any fun (low, high) => low ≤ c.toNat && c.toNat ≤ high

end Text

end ContextFree
