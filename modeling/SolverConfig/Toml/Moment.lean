import SolverConfig.Number.Literal
import SolverConfig.Number.Notation

/-!
# Moments

Calendar dates, times of day and offsets, their written forms, and the one form in which they are
kept.
-/

namespace SolverConfig.Toml

structure Date where
  year : Nat
  month : Nat
  day : Nat
  deriving DecidableEq

namespace Date

def isLeapYear (year : Nat) : Bool := year % 4 == 0 && (year % 100 != 0 || year % 400 == 0)

def monthLength (year month : Nat) : Nat :=
  if month = 2 then if isLeapYear year then 29 else 28
  else if month = 4 ∨ month = 6 ∨ month = 9 ∨ month = 11 then 30
  else 31

def isValid (d : Date) : Bool :=
  1 ≤ d.month && d.month ≤ 12 && 1 ≤ d.day && d.day ≤ monthLength d.year d.month

end Date

/-- A time of day. Seconds may be left out, and a fraction counts nanoseconds. -/
structure Time where
  hour : Nat
  minute : Nat
  second : Option Nat
  nanosecond : Option Nat
  deriving DecidableEq

/-- A minute may end in a leap second. -/
def Time.isValid (t : Time) : Bool :=
  t.hour ≤ 23 && t.minute ≤ 59 && t.second.all (· ≤ 60)

inductive Offset where
  | utc
  | custom (west : Bool) (hour minute : Nat)
  deriving DecidableEq

def Offset.isValid : Offset → Bool
  | .utc => true
  | .custom _ hour minute => hour ≤ 23 && minute ≤ 59

inductive Moment where
  | date (d : Date)
  | time (t : Time)
  | dateTime (d : Date) (t : Time) (o : Option Offset)
  deriving DecidableEq

section Text

def padded (width n : Nat) : List Char :=
  let digits := decimalDigits n
  zeros (width - digits.length) ++ digits

def Date.text (d : Date) : List Char :=
  padded 4 d.year ++ '-' :: padded 2 d.month ++ '-' :: padded 2 d.day

/-- The digits of a fraction, of which at least one is written and no zeros at the end. -/
def fractionText (nanosecond : Nat) : List Char :=
  let trimmed := ((padded 9 nanosecond).reverse.dropWhile (· == '0')).reverse
  if trimmed.isEmpty then ['0'] else trimmed

def Time.text (t : Time) : List Char :=
  padded 2 t.hour ++ ':' :: padded 2 t.minute ++
    (match t.second with
      | some second => ':' :: padded 2 second
      | none => []) ++
    (match t.nanosecond with
      | some nanosecond => '.' :: fractionText nanosecond
      | none => [])

def Offset.text : Offset → List Char
  | .utc => ['Z']
  | .custom west hour minute =>
    let sign := if west && (hour != 0 || minute != 0) then '-' else '+'
    sign :: padded 2 hour ++ ':' :: padded 2 minute

def Moment.text : Moment → List Char
  | .date d => d.text
  | .time t => t.text
  | .dateTime d t o => d.text ++ 'T' :: t.text ++ (o.map Offset.text).getD []

end Text

section Reading

def takeNumber (width : Nat) (s : List Char) : Option (Nat × List Char) :=
  let digits := s.take width
  if digits.length = width ∧ digits.all Char.isDigit then some (digitsValue digits, s.drop width)
  else none

def takeChar (c : Char) : List Char → Option (List Char)
  | [] => none
  | d :: rest => if c == d then some rest else none

def takeDate (s : List Char) : Option (Date × List Char) := do
  let (year, s) ← takeNumber 4 s
  let s ← takeChar '-' s
  let (month, s) ← takeNumber 2 s
  let s ← takeChar '-' s
  let (day, s) ← takeNumber 2 s
  let d : Date := ⟨year, month, day⟩
  if d.isValid then some (d, s) else none

/-- The fraction after a point. Digits after the ninth are dropped. -/
def takeFraction (s : List Char) : Option (Nat × List Char) :=
  let digits := s.takeWhile Char.isDigit
  if digits.isEmpty then none
  else
    let kept := digits.take 9
    some (digitsValue (kept ++ zeros (9 - kept.length)), s.dropWhile Char.isDigit)

def takeSeconds (s : List Char) : Option ((Option Nat × Option Nat) × List Char) :=
  match takeChar ':' s with
  | none => some ((none, none), s)
  | some s => do
    let (second, s) ← takeNumber 2 s
    match takeChar '.' s with
    | none => some ((some second, none), s)
    | some s => do
      let (nanosecond, s) ← takeFraction s
      some ((some second, some nanosecond), s)

def takeTime (s : List Char) : Option (Time × List Char) := do
  let (hour, s) ← takeNumber 2 s
  let s ← takeChar ':' s
  let (minute, s) ← takeNumber 2 s
  let ((second, nanosecond), s) ← takeSeconds s
  let t : Time := ⟨hour, minute, second, nanosecond⟩
  if t.isValid then some (t, s) else none

def readOffset : List Char → Option Offset
  | [] => none
  | c :: s =>
    if c == 'Z' || c == 'z' then if s.isEmpty then some .utc else none
    else if c == '+' || c == '-' then do
      let (hour, s) ← takeNumber 2 s
      let s ← takeChar ':' s
      let (minute, s) ← takeNumber 2 s
      let o : Offset := .custom (c == '-') hour minute
      if s.isEmpty && o.isValid then some o else none
    else none

def isDateSeparator (c : Char) : Bool := c == 'T' || c == 't' || c == ' '

def Moment.read (s : List Char) : Option Moment :=
  match takeDate s with
  | some (d, []) => some (.date d)
  | some (d, c :: s) =>
    if isDateSeparator c then
      match takeTime s with
      | some (t, []) => some (.dateTime d t none)
      | some (t, s) => (readOffset s).map fun o => .dateTime d t (some o)
      | none => none
    else none
  | none =>
    match takeTime s with
    | some (t, []) => some (.time t)
    | _ => none

end Reading

end SolverConfig.Toml
