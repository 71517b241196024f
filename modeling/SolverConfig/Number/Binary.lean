/-!
# Binary floating-point numbers

A number is a sign and a magnitude: the bits below the sign, read as a natural number. In that
form the magnitudes of one format are ordered as their values, and a carry out of the significand
is a plain addition. Values are counted in units of the least positive number of the format, so
every finite number is a natural number of units and no negative exponent appears.
-/

namespace SolverConfig

/-- A binary format: the bits of a normal significand, the leading one included, and the bits of
the exponent. -/
structure BinaryFormat where
  precision : Nat
  exponentBits : Nat
  deriving DecidableEq

namespace BinaryFormat

def single : BinaryFormat := ⟨24, 8⟩

def double : BinaryFormat := ⟨53, 11⟩

def hidden (F : BinaryFormat) : Nat := Nat.pow 2 (F.precision - 1)

def unitBits (F : BinaryFormat) : Nat := Nat.pow 2 (F.exponentBits - 1) + F.precision - 3

/-- The magnitude of the infinities. Those above it are not numbers. -/
def infinity (F : BinaryFormat) : Nat := (Nat.pow 2 F.exponentBits - 1) * F.hidden

def bound (F : BinaryFormat) : Nat := Nat.pow 2 F.exponentBits * F.hidden

theorem hidden_pos (F : BinaryFormat) : 0 < F.hidden := Nat.two_pow_pos _

theorem infinity_lt_bound (F : BinaryFormat) : F.infinity < F.bound :=
  Nat.mul_lt_mul_of_pos_right (Nat.sub_lt (Nat.two_pow_pos _) Nat.one_pos) F.hidden_pos

end BinaryFormat

structure Binary (F : BinaryFormat) where
  negative : Bool
  magnitude : Nat
  magnitude_lt : magnitude < F.bound
  deriving DecidableEq

abbrev Single := Binary .single

abbrev Double := Binary .double

namespace Binary

variable {F G : BinaryFormat}

def ofMagnitude (negative : Bool) (magnitude : Nat) : Binary F :=
  ⟨negative, min magnitude F.infinity,
    Nat.lt_of_le_of_lt (Nat.min_le_right ..) F.infinity_lt_bound⟩

def zero (negative : Bool) : Binary F := ofMagnitude negative 0

def infinite (negative : Bool) : Binary F := ofMagnitude negative F.infinity

def nan : Binary F :=
  ⟨false, F.bound - 1, Nat.sub_lt (Nat.lt_of_le_of_lt (Nat.zero_le _) F.infinity_lt_bound)
    Nat.one_pos⟩

def isNaN (x : Binary F) : Bool := F.infinity < x.magnitude

def isFinite (x : Binary F) : Bool := x.magnitude < F.infinity

def isZero (x : Binary F) : Bool := x.magnitude == 0

def bits (x : Binary F) : Nat := (if x.negative then F.bound else 0) + x.magnitude

/-- Numeric equality: a number that is not one differs from everything, itself included, and the
two zeros are equal. -/
def same (x y : Binary F) : Bool :=
  !x.isNaN && !y.isNaN && (x == y || (x.isZero && y.isZero))

def exponent (x : Binary F) : Nat := x.magnitude / F.hidden - 1

def significand (x : Binary F) : Nat := x.magnitude - x.exponent * F.hidden

def units (x : Binary F) : Nat := x.significand * Nat.pow 2 x.exponent

def negate (x : Binary F) : Binary F := { x with negative := !x.negative }

end Binary

/-- The natural number nearest to a quotient; of two, the even one. -/
def roundQuotient (num den : Nat) : Nat :=
  let quotient := num / den
  let rest := num % den
  if 2 * rest < den then quotient
  else if den < 2 * rest then quotient + 1
  else if quotient % 2 = 0 then quotient else quotient + 1

namespace Binary

variable {F G : BinaryFormat}

/-- The exponent that a quotient of units takes: the least one under which it needs no more than
the bits of a significand. -/
def spacing (F : BinaryFormat) (num den : Nat) : Nat :=
  let guess := num.log2 - (den.log2 + (F.precision - 1))
  if num < den * Nat.pow 2 (guess - 1 + F.precision) then guess - 1 else guess

/-- Rounds a quotient of units to nearest, ties to even, and to infinity past the largest finite
number. A significand that rounds up to the next power of two carries into the exponent. -/
def roundUnits (negative : Bool) (num den : Nat) : Binary F :=
  let exponent := spacing F num den
  ofMagnitude negative (exponent * F.hidden + roundQuotient num (den * Nat.pow 2 exponent))

def ofRatio (negative : Bool) (num den : Nat) : Binary F :=
  roundUnits negative (num * Nat.pow 2 F.unitBits) den

def ofNat (n : Nat) : Binary F := ofRatio false n 1

def ofInt (n : Int) : Binary F := ofRatio (n < 0) n.natAbs 1

def convert (G : BinaryFormat) (x : Binary F) : Binary G :=
  if x.isNaN then nan
  else if x.isFinite then ofRatio x.negative x.units (Nat.pow 2 F.unitBits)
  else infinite x.negative

def mul (x y : Binary F) : Binary F :=
  roundUnits (x.negative != y.negative) (x.units * y.units) (Nat.pow 2 F.unitBits)

def div (x y : Binary F) : Binary F :=
  roundUnits (x.negative != y.negative) (x.units * Nat.pow 2 F.unitBits) y.units

def epsilon : Binary F := ofRatio false 1 (Nat.pow 2 (F.precision - 1))

@[simp] theorem isNaN_ofMagnitude (s : Bool) (m : Nat) :
    (ofMagnitude s m : Binary F).isNaN = false :=
  decide_eq_false (Nat.not_lt.mpr (Nat.min_le_right ..))

@[simp] theorem negative_ofMagnitude (s : Bool) (m : Nat) :
    (ofMagnitude s m : Binary F).negative = s := rfl

@[simp] theorem isNaN_ofInt (n : Int) : (ofInt n : Binary F).isNaN = false :=
  isNaN_ofMagnitude ..

@[simp] theorem isNaN_ofRatio (s : Bool) (num den : Nat) :
    (ofRatio s num den : Binary F).isNaN = false :=
  isNaN_ofMagnitude ..

@[simp] theorem isNaN_infinite (s : Bool) : (infinite s : Binary F).isNaN = false :=
  isNaN_ofMagnitude ..

@[simp] theorem isNaN_zero (s : Bool) : (zero s : Binary F).isNaN = false :=
  isNaN_ofMagnitude ..

@[simp] theorem isNaN_ofNat (n : Nat) : (ofNat n : Binary F).isNaN = false :=
  isNaN_ofMagnitude ..

@[simp] theorem isNaN_mul (x y : Binary F) : (x.mul y).isNaN = false :=
  isNaN_ofMagnitude ..

theorem same_comm (x y : Binary F) : x.same y = y.same x := by
  simp only [same, Bool.beq_comm (a := x), Bool.and_comm x.isZero]
  cases x.isNaN <;> cases y.isNaN <;> rfl

theorem same_self (x : Binary F) : x.same x = !x.isNaN := by
  simp [same]

end Binary

end SolverConfig
