import SolverConfig.Number.Shortest

/-!
# Number literals

A literal is what stands in a text: a sign, digits, and optional fraction and exponent digits. It is
read either to the nearest number, or in two rounded steps by scaling its leading digits.
-/

namespace SolverConfig

def digitsValue (digits : List Char) : Nat :=
  digits.foldl (fun n c => 10 * n + (c.toNat - '0'.toNat)) 0

structure Exponent where
  negative : Bool
  digits : List Char
  deriving DecidableEq

structure NumberLiteral where
  negative : Bool
  whole : List Char
  fraction : Option (List Char)
  exponent : Option Exponent
  deriving DecidableEq

def Exponent.value (e : Exponent) : Int :=
  if e.negative then -(digitsValue e.digits : Int) else digitsValue e.digits

namespace Decimal

/-- The nearest number to a decimal. Exponents that exceed the range of the format on their own
give infinity or zero without a power of ten being formed. -/
def nearest (F : BinaryFormat) (negative : Bool) (d : Decimal) : Binary F :=
  let range := Nat.pow 2 F.exponentBits + F.precision
  if d.coefficient = 0 then .zero negative
  else if 0 ≤ d.exponent then
    if range < d.exponent then .infinite negative
    else .ofRatio negative (d.coefficient * Nat.pow 10 d.exponent.toNat) 1
  else
    if range + d.coefficient.log2 < -d.exponent then .zero negative
    else .ofRatio negative d.coefficient (Nat.pow 10 (-d.exponent).toNat)

end Decimal

namespace NumberLiteral

def isWhole (l : NumberLiteral) : Bool := l.fraction.isNone && l.exponent.isNone

def decimal (l : NumberLiteral) : Decimal :=
  let fraction := l.fraction.getD []
  let exponent := (l.exponent.map Exponent.value).getD 0
  ⟨digitsValue (l.whole ++ fraction), exponent - fraction.length⟩

def nearest (F : BinaryFormat) (l : NumberLiteral) : Binary F := l.decimal.nearest F l.negative

def appendDigit? (significand : Nat) (c : Char) : Option Nat :=
  let next := 10 * significand + (c.toNat - '0'.toNat)
  if next < UInt64.size then some next else none

def takeSignificand (significand : Nat) : List Char → Nat × List Char
  | [] => (significand, [])
  | c :: rest =>
    match appendDigit? significand c with
    | some next => takeSignificand next rest
    | none => (significand, c :: rest)

/-- The leading digits of the literal as a 64-bit significand, with the power of ten that the
digits kept and dropped before the exponent leave to it. -/
def leadingDigits (l : NumberLiteral) : Decimal :=
  let (whole, dropped) := takeSignificand 0 l.whole
  let (significand, ignored) := takeSignificand whole (l.fraction.getD [])
  ⟨significand, dropped.length - ((l.fraction.getD []).length - ignored.length : Nat)⟩

end NumberLiteral

def Binary.powerOfTen (k : Nat) : Double := .ofNat (Nat.pow 10 k)

/-- Multiplies by `10 ^ exponent`, rounding once; below the range of powers of ten it first divides
by the largest of them, rounding each time. No number if the result would be infinite. -/
def Binary.scaleWithin (x : Double) (exponent : Int) : Nat → Option Double
  | 0 => some (.zero false)
  | steps + 1 =>
    if exponent.natAbs ≤ 308 then
      if 0 ≤ exponent then
        let y := x.mul (.powerOfTen exponent.toNat)
        if y.isFinite then some y else none
      else some (x.div (.powerOfTen exponent.natAbs))
    else if x.isZero then some x
    else if 0 ≤ exponent then none
    else (x.div (.powerOfTen 308)).scaleWithin (exponent + 308) steps

/-- A significand of 64 bits vanishes after two divisions, so four steps always suffice. -/
def Binary.scale? (x : Double) (exponent : Int) : Option Double := x.scaleWithin exponent 4

def Exponent.isHuge (e : Exponent) : Bool := Int32.maxValue.toInt < digitsValue e.digits

/-- Reads a literal by scaling its leading digits, which may differ from the nearest number in the
last bits. No number if the literal overflows. -/
def NumberLiteral.scaled? (l : NumberLiteral) : Option Double :=
  let leading := l.leadingDigits
  let magnitude :=
    match l.exponent with
    | none => Binary.scale? (.ofNat leading.coefficient) leading.exponent
    | some e =>
      if e.isHuge then
        if leading.coefficient ≠ 0 && !e.negative then none else some (.zero false)
      else Binary.scale? (.ofNat leading.coefficient) (leading.exponent + e.value)
  magnitude.map fun x => if l.negative then x.negate else x

end SolverConfig
