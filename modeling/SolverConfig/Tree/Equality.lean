import SolverConfig.Tree.Basic

/-!
# Equality of trees

Two trees are equal if they have the same variants, numerically equal leaves, and maps with equal
entries under the same keys in any order.
-/

namespace SolverConfig

namespace Tree

mutual

def same : Tree → Tree → Bool
  | .empty, .empty => true
  | .boolean a, .boolean b => a == b
  | .integer m, .integer n => m == n
  | .real x, .real y => x.same y
  | .text s, .text t => s == t
  | .array items, .array others => sameItems items others
  | .map entries, .map others => entries.length == others.length && sameEntries entries others
  | _, _ => false
termination_by structural t => t

def sameItems : List Tree → List Tree → Bool
  | [], [] => true
  | t :: rest, u :: others => t.same u && sameItems rest others
  | _, _ => false
termination_by structural ts => ts

def sameEntries : List (String × Tree) → Entries → Bool
  | [], _ => true
  | (key, t) :: rest, others =>
    (match others.lookup key with
      | some u => t.same u
      | none => false) && sameEntries rest others
termination_by structural es => es

end

end Tree

end SolverConfig
