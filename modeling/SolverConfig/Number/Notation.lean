import SolverConfig.Number.Shortest

/-!
# Number notation

A style fixes how the digits of a number are laid out. Each kind of text that the library writes
has one style.
-/

namespace SolverConfig

/-- The decisions of a notation: where ties go, the powers of ten of the leading digit that are
written without an exponent (all of them if `none`), whether a whole number ends in a zero after
the point, and whether a positive exponent is signed. -/
structure NumberStyle where
  tie : Tie
  positional : Option (Int × Int)
  point : Bool
  signedExponent : Bool
  deriving DecidableEq

namespace NumberStyle

/-- Structural texts: a point always, an exponent below a ten-thousandth and from `10 ^ 16`. -/
def structural : NumberStyle := ⟨.upper, some (-4, 15), true, false⟩

/-- Error messages: never an exponent, a point only before a fraction. -/
def plain : NumberStyle := ⟨.upper, none, false, false⟩

/-- Written trees: a point always, a signed exponent below `10 ^ -5` and from `10 ^ 16`. -/
def document : NumberStyle := ⟨.even, some (-5, 15), true, true⟩

def usesExponent (s : NumberStyle) (leading : Int) : Bool :=
  match s.positional with
  | none => false
  | some (low, high) => leading < low || high < leading

end NumberStyle

def zeros (n : Nat) : List Char := List.replicate n '0'

namespace Decimal

def positional (d : Decimal) (point : Bool) : List Char :=
  let digits := d.digits
  if 0 ≤ d.exponent then
    digits ++ zeros d.exponent.toNat ++ (if point then ['.', '0'] else [])
  else
    let places := (-d.exponent).toNat
    let padded := zeros (places + 1 - digits.length) ++ digits
    padded.take (padded.length - places) ++ '.' :: padded.drop (padded.length - places)

def integerDigits (n : Int) : List Char :=
  if n < 0 then '-' :: decimalDigits n.natAbs else decimalDigits n.natAbs

def scientific (d : Decimal) (signed : Bool) : List Char :=
  let fraction := match d.digits with
    | [] => []
    | [digit] => [digit]
    | digit :: rest => digit :: '.' :: rest
  let sign := if signed && 0 ≤ d.leading then ['+'] else []
  fraction ++ 'e' :: sign ++ integerDigits d.leading

end Decimal

namespace Binary

variable {F : BinaryFormat}

def unsignedText (style : NumberStyle) (x : Binary F) : List Char :=
  if x.isZero then if style.point then ['0', '.', '0'] else ['0']
  else
    let d := x.shortest style.tie
    if style.usesExponent d.leading then d.scientific style.signedExponent
    else d.positional style.point

def text (style : NumberStyle) (x : Binary F) : List Char :=
  if x.isNaN then "NaN".toList
  else
    let body := if x.isFinite then x.unsignedText style else "inf".toList
    if x.negative then '-' :: body else body

end Binary

end SolverConfig
