import SolverConfig.Choice
import SolverConfig.Number.Notation
import SolverConfig.Types

/-!
# Targets of conversion

The types that a tree can be converted to, and the values of each.
-/

namespace SolverConfig

inductive IntegerType where
  | int8
  | int16
  | int32
  | int64
  | intSize
  | nat8
  | nat16
  | nat32
  | nat64
  | natSize
  deriving DecidableEq

namespace IntegerType

def name : IntegerType → String
  | .int8 => "i8"
  | .int16 => "i16"
  | .int32 => "i32"
  | .int64 => "i64"
  | .intSize => "isize"
  | .nat8 => "u8"
  | .nat16 => "u16"
  | .nat32 => "u32"
  | .nat64 => "u64"
  | .natSize => "usize"

def least : IntegerType → Int
  | .int8 => -128
  | .int16 => -32768
  | .int32 => -2147483648
  | .int64 | .intSize => -9223372036854775808
  | .nat8 | .nat16 | .nat32 | .nat64 | .natSize => 0

/-- The largest integer of the type; sizes have 64 bits. -/
def largest : IntegerType → Int
  | .int8 => 127
  | .int16 => 32767
  | .int32 => 2147483647
  | .int64 | .intSize => 9223372036854775807
  | .nat8 => 255
  | .nat16 => 65535
  | .nat32 => 4294967295
  | .nat64 | .natSize => 18446744073709551615

def contains (t : IntegerType) (n : Int) : Bool := t.least ≤ n && n ≤ t.largest

/-- Whether every integer of the type fits 64 signed bits, whatever size words have. -/
def isNarrow : IntegerType → Bool
  | .intSize | .nat64 | .natSize => false
  | _ => true

end IntegerType

inductive Precision where
  | single
  | double
  deriving DecidableEq

namespace Precision

@[reducible] def format : Precision → BinaryFormat
  | .single => .single
  | .double => .double

def name : Precision → String
  | .single => "f32"
  | .double => "f64"

def ofDouble : (p : Precision) → Double → Binary p.format
  | .single, x => x.convert .single
  | .double, x => x

def toDouble : (p : Precision) → Binary p.format → Double
  | .single, x => x.convert .double
  | .double, x => x

@[simp] theorem isNaN_ofDouble (p : Precision) (x : Double) :
    (p.ofDouble x).isNaN = x.isNaN := by
  cases p with
  | double => rfl
  | single =>
    change (Binary.convert .single x).isNaN = x.isNaN
    unfold Binary.convert
    cases hx : x.isNaN with
    | true =>
      rw [if_pos rfl]
      rfl
    | false =>
      rw [if_neg Bool.false_ne_true]
      split
      · exact Binary.isNaN_ofRatio ..
      · exact Binary.isNaN_infinite _

end Precision

inductive Numeric where
  | integer (t : IntegerType)
  | real (p : Precision)
  deriving DecidableEq

structure Complex (α : Type) where
  re : α
  im : α
  deriving DecidableEq

namespace Numeric

@[reducible] def Carrier : Numeric → Type
  | .integer _ => Int
  | .real p => Binary p.format

instance decidableEqCarrier : (n : Numeric) → DecidableEq n.Carrier
  | .integer _ => inferInstanceAs (DecidableEq Int)
  | .real p => inferInstanceAs (DecidableEq (Binary p.format))

def zero : (n : Numeric) → n.Carrier
  | .integer _ => (0 : Int)
  | .real _ => Binary.zero false

def same : (n : Numeric) → n.Carrier → n.Carrier → Bool
  | .integer _, m, n => m == n
  | .real _, x, y => x.same y

def outline : (n : Numeric) → n.Carrier → Outline
  | .integer _, n => .ofInt n
  | .real _, x => .atom (String.ofList (x.text .structural))

end Numeric

inductive Target where
  | number (n : Numeric)
  | complex (n : Numeric)
  | flag
  | text
  | duration
  | guess
  | algorithm
  | baseline
  | list (t : Target)
  deriving DecidableEq

/-- The text of a length of time: its whole part in the largest unit in which it is not zero, and
its fraction without trailing zeros. -/
def durationText (nanoseconds : Nat) : String :=
  let (places, unit) :=
    if 1000000000 ≤ nanoseconds then (9, "s")
    else if 1000000 ≤ nanoseconds then (6, "ms")
    else if 1000 ≤ nanoseconds then (3, "µs")
    else (0, "ns")
  let fraction := decimalDigits (nanoseconds % Nat.pow 10 places)
  let padded := zeros (places - fraction.length) ++ fraction
  let trimmed := (padded.reverse.dropWhile (· == '0')).reverse
  let body := decimalDigits (nanoseconds / Nat.pow 10 places)
  String.ofList (if trimmed.isEmpty then body else body ++ '.' :: trimmed) ++ unit

namespace Target

/-- The values of a target. A duration counts nanoseconds. -/
@[reducible] def Carrier : Target → Type
  | .number n => n.Carrier
  | .complex n => Complex n.Carrier
  | .flag => Bool
  | .text => String
  | .duration => Nat
  | .guess => InitialGuess
  | .algorithm => TriangularAlgorithm
  | .baseline => Baseline
  | .list t => List t.Carrier

instance decidableEqCarrier : (t : Target) → DecidableEq t.Carrier
  | .number n => inferInstanceAs (DecidableEq n.Carrier)
  | .complex n => inferInstanceAs (DecidableEq (Complex n.Carrier))
  | .flag => inferInstanceAs (DecidableEq Bool)
  | .text => inferInstanceAs (DecidableEq String)
  | .duration => inferInstanceAs (DecidableEq Nat)
  | .guess => inferInstanceAs (DecidableEq InitialGuess)
  | .algorithm => inferInstanceAs (DecidableEq TriangularAlgorithm)
  | .baseline => inferInstanceAs (DecidableEq Baseline)
  | .list t =>
    have := decidableEqCarrier t
    inferInstanceAs (DecidableEq (List t.Carrier))

/-- Equality of values: reals numerically, complex numbers by parts, lists by elements. -/
def same : (t : Target) → t.Carrier → t.Carrier → Bool
  | .number n, x, y => n.same x y
  | .complex n, x, y => n.same x.re y.re && n.same x.im y.im
  | .flag, a, b => a == b
  | .text, s, t => s == t
  | .duration, m, n => m == n
  | .guess, a, b => a == b
  | .algorithm, a, b => a == b
  | .baseline, a, b => a == b
  | .list t, xs, ys => xs.isEqv ys t.same

def outline : (t : Target) → t.Carrier → Outline
  | .number n, x => n.outline x
  | .complex n, x => .record "Complex" [("re", n.outline x.re), ("im", n.outline x.im)]
  | .flag, b => .ofBool b
  | .text, s => .text s
  | .duration, n => .atom (durationText n)
  | .guess, g => .atom (Vocabulary.label g)
  | .algorithm, a => .atom (Vocabulary.label a)
  | .baseline, b => .atom (Vocabulary.label b)
  | .list t, xs => .list (xs.map t.outline)

end Target

namespace ValueType

def precision : ValueType → Precision
  | .float32 | .complex32 => .single
  | .float64 | .complex64 => .double

def target : ValueType → Target
  | .float32 => .number (.real .single)
  | .float64 => .number (.real .double)
  | .complex32 => .complex (.real .single)
  | .complex64 => .complex (.real .double)

def zero : (v : ValueType) → v.target.Carrier
  | .float32 => Binary.zero (F := .single) false
  | .float64 => Binary.zero (F := .double) false
  | .complex32 => Complex.mk (Binary.zero (F := .single) false) (.zero false)
  | .complex64 => Complex.mk (Binary.zero (F := .double) false) (.zero false)

def one : (v : ValueType) → v.target.Carrier
  | .float32 => Binary.ofNat (F := .single) 1
  | .float64 => Binary.ofNat (F := .double) 1
  | .complex32 => Complex.mk (Binary.ofNat (F := .single) 1) (.zero false)
  | .complex64 => Complex.mk (Binary.ofNat (F := .double) 1) (.zero false)

end ValueType

def IndexType.integerType : IndexType → IntegerType
  | .void | .int32 => .int32
  | .int64 => .int64

end SolverConfig
