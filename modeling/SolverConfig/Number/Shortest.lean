import SolverConfig.Number.Binary

/-!
# Shortest decimals

The decimal with the fewest digits among the reals that round to a number. Grids of powers of ten
are tried from coarse to fine; on each grid only the two neighbours of the number can lie among
those reals if any point does.
-/

namespace SolverConfig

inductive Tie where
  | upper
  | even
  deriving DecidableEq

structure Decimal where
  coefficient : Nat
  exponent : Int
  deriving DecidableEq

def decimalDigits (n : Nat) : List Char := Nat.toDigits 10 n

namespace Decimal

def digits (d : Decimal) : List Char := decimalDigits d.coefficient

def leading (d : Decimal) : Int := d.exponent + d.digits.length - 1

end Decimal

/-- A number and the interval of reals that round to it, on a common scale; the ends belong to it
when the significand is even. -/
structure RoundingInterval where
  value : Nat
  lower : Nat
  upper : Nat
  closed : Bool
  deriving DecidableEq

namespace RoundingInterval

def contains (i : RoundingInterval) (n : Nat) : Bool :=
  if i.closed then i.lower ≤ n && n ≤ i.upper else i.lower < n && n < i.upper

def scale (i : RoundingInterval) (k : Nat) : RoundingInterval :=
  ⟨i.value * k, i.lower * k, i.upper * k, i.closed⟩

/-- The multiple of `step` in the interval next to its value; between two of them the closer one,
and at a tie the one that `tie` names. -/
def multiple? (i : RoundingInterval) (tie : Tie) (step : Nat) : Option Nat :=
  let below := i.value / step
  let above := below + 1
  match i.contains (below * step), i.contains (above * step) with
  | true, true =>
    let twice := 2 * i.value
    let middle := (below + above) * step
    if twice < middle then some below
    else if middle < twice then some above
    else match tie with
      | .upper => some above
      | .even => some (if below % 2 = 0 then below else above)
  | true, false => some below
  | false, true => some above
  | false, false => none

end RoundingInterval

namespace Binary

variable {F : BinaryFormat}

/-- The interval of a finite number, in quarters of units. Below a power of two the next number is
half as far as above it. -/
def interval (x : Binary F) : RoundingInterval :=
  let gap := Nat.pow 2 x.exponent
  let lower := if x.significand = F.hidden ∧ x.exponent ≠ 0 then gap else 2 * gap
  let value := 4 * x.units
  ⟨value, value - lower, value + 2 * gap, x.significand % 2 = 0⟩

/-- The point of the grid of multiples of `10 ^ k` that stands for the number, if one does. -/
def onGrid? (x : Binary F) (tie : Tie) (k : Int) : Option Decimal :=
  let quarters := 4 * Nat.pow 2 F.unitBits
  let point :=
    if 0 ≤ k then x.interval.multiple? tie (quarters * Nat.pow 10 k.toNat)
    else (x.interval.scale (Nat.pow 10 (-k).toNat)).multiple? tie quarters
  point.map fun c => ⟨c, k⟩

def coarsest (x : Binary F) : Int :=
  ((x.units.log2 : Int) + 1 - F.unitBits) * 1233 / 4096 + 1

/-- The shortest decimal that rounds to a finite number other than zero. Of those with the fewest
digits it is the closest; seventeen digits always suffice. -/
def shortest (tie : Tie) (x : Binary F) : Decimal :=
  ((List.range 24).findSome? fun (n : Nat) => x.onGrid? tie (x.coarsest - n)).getD ⟨0, 0⟩

end Binary

end SolverConfig
