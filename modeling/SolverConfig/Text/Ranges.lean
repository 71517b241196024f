/-!
# Character ranges

Sets of characters as lists of closed ranges of code points, in increasing order.
-/

namespace SolverConfig

abbrev CharRanges := List (Nat × Nat)

def CharRanges.contains (ranges : CharRanges) (c : Char) : Bool :=
  ranges.any fun r => r.1 ≤ c.toNat && c.toNat ≤ r.2

end SolverConfig
