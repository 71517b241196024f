import SolverConfig.Toml.Moment
import SolverConfig.Tree.Basic

/-!
# Scalars

Unquoted values: booleans, integers, reals and moments, each a word without blanks inside, save
that a blank may stand between a date and a time.
-/

namespace SolverConfig.Toml

/-- Removes the underscores of a run of digits. They stand between digits only. -/
def joinDigits? (isDigit : Char → Bool) : List Char → Option (List Char)
  | [] => none
  | [c] => if isDigit c then some [c] else none
  | c :: '_' :: rest => if isDigit c then (joinDigits? isDigit rest).map (c :: ·) else none
  | c :: rest => if isDigit c then (joinDigits? isDigit rest).map (c :: ·) else none

def splitAt? (isMark : Char → Bool) (s : List Char) : List Char × Option (List Char) :=
  match s.dropWhile (!isMark ·) with
  | [] => (s, none)
  | _ :: rest => (s.takeWhile (!isMark ·), some rest)

def takeSign : List Char → Bool × Bool × List Char
  | '-' :: rest => (true, true, rest)
  | '+' :: rest => (false, true, rest)
  | s => (false, false, s)

def leadingDigits? (s : List Char) : Option (List Char) :=
  match joinDigits? Char.isDigit s with
  | some ('0' :: _ :: _) => none
  | digits => digits

section Integers

inductive Radix where
  | binary
  | octal
  | hexadecimal
  deriving DecidableEq

def Radix.base : Radix → Nat
  | .binary => 2
  | .octal => 8
  | .hexadecimal => 16

def Radix.ofMark? : Char → Option Radix
  | 'b' => some .binary
  | 'o' => some .octal
  | 'x' => some .hexadecimal
  | _ => none

def hexadecimalValue (c : Char) : Nat :=
  if c.isDigit then c.toNat - '0'.toNat
  else if 'a' ≤ c then c.toNat - 'a'.toNat + 10
  else c.toNat - 'A'.toNat + 10

def isHexadecimal (c : Char) : Bool :=
  c.isDigit || ('a' ≤ c && c ≤ 'f') || ('A' ≤ c && c ≤ 'F')

def Radix.isDigit (r : Radix) (c : Char) : Bool := isHexadecimal c && hexadecimalValue c < r.base

def Radix.value (r : Radix) (digits : List Char) : Nat :=
  digits.foldl (fun n c => r.base * n + hexadecimalValue c) 0

def integer? (n : Int) : Option Tree :=
  if Int64.minValue.toInt ≤ n ∧ n ≤ Int64.maxValue.toInt then some (.integer (Int64.ofInt n))
  else none

/-- An integer: decimal with an optional sign, or of another radix without one. -/
def readInteger (s : List Char) : Option Tree :=
  let (negative, signed, digits) := takeSign s
  match signed, digits with
  | false, '0' :: mark :: rest =>
    match Radix.ofMark? mark with
    | some r => (joinDigits? r.isDigit rest).bind fun digits => integer? (r.value digits)
    | none => none
  | _, _ =>
    (leadingDigits? digits).bind fun digits =>
      let n : Int := digitsValue digits
      integer? (if negative then -n else n)

end Integers

section Reals

def readExponent (s : List Char) : Option Exponent :=
  let (negative, _, digits) := takeSign s
  (joinDigits? Char.isDigit digits).map (⟨negative, ·⟩)

def isExponentMark (c : Char) : Bool := c == 'e' || c == 'E'

def readOptional {α : Type} (read : List Char → Option α) :
    Option (List Char) → Option (Option α)
  | none => some none
  | some s => (read s).map some

def readLiteral (negative : Bool) (s : List Char) : Option NumberLiteral := do
  let (mantissa, exponent) := splitAt? isExponentMark s
  let (whole, fraction) := splitAt? (· == '.') mantissa
  let whole ← leadingDigits? whole
  let fraction ← readOptional (joinDigits? Char.isDigit) fraction
  let exponent ← readOptional readExponent exponent
  let l : NumberLiteral := ⟨negative, whole, fraction, exponent⟩
  if l.isWhole then none else some l

/-- A real: a finite decimal, rounded to nearest, or one of the words for the other numbers. -/
def readReal (s : List Char) : Option Tree :=
  let (negative, _, s) := takeSign s
  if s = ['i', 'n', 'f'] then some (.real (.infinite negative))
  else if s = ['n', 'a', 'n'] then some (.real .nan)
  else
    match readLiteral negative s with
    | some l =>
      let x := l.nearest .double
      if x.isFinite then some (.real x) else none
    | none => none

end Reals

def momentKey : String := "$__toml_private_datetime"

def readMoment (s : List Char) : Option Tree :=
  (Moment.read s).map fun m => .map [(momentKey, .text (String.ofList m.text))]

def readBoolean (s : List Char) : Option Tree :=
  if s = ['t', 'r', 'u', 'e'] then some (.boolean true)
  else if s = ['f', 'a', 'l', 's', 'e'] then some (.boolean false)
  else none

def scalar? (word : List Char) : Option Tree :=
  readBoolean word <|> readInteger word <|> readReal word <|> readMoment word

def isWordChar (c : Char) : Bool :=
  c.isAlphanum || c == '_' || c == '+' || c == '-' || c == '.' || c == ':'

def timeFollows (word rest : List Char) : Bool :=
  match takeDate word, rest with
  | some (_, []), ' ' :: c :: _ => c.isDigit
  | _, _ => false

def readScalar (s : List Char) : Option (Tree × List Char) :=
  let word := s.takeWhile isWordChar
  let rest := s.dropWhile isWordChar
  if timeFollows word rest then
    let time := rest.tail
    (scalar? (word ++ ' ' :: time.takeWhile isWordChar)).map
      fun t => (t, time.dropWhile isWordChar)
  else (scalar? word).map fun t => (t, rest)

end SolverConfig.Toml
