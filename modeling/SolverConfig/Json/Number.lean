import SolverConfig.Number.Literal

/-!
# JSON numbers

The grammar of number literals as a state machine over characters, and the kinds of number that a
literal denotes.
-/

namespace SolverConfig.Json

/-- An integer literal within 64 unsigned bits, a negative one within 64 signed bits, or a real. -/
inductive Number where
  | unsigned (n : Nat)
  | negative (n : Nat)
  | real (x : Double)
  deriving DecidableEq

/-- The number that a literal denotes: an integer by its form where its value fits, otherwise a
real. Minus zero is a real. Nothing if a real overflows. -/
def Number.ofLiteral? (l : NumberLiteral) : Option Number :=
  let n := digitsValue l.whole
  if l.isWhole && !l.negative && n < UInt64.size then some (.unsigned n)
  else if l.isWhole && l.negative && 0 < n && Int64.minValue.toInt ≤ -n then some (.negative n)
  else l.scaled?.map .real

inductive NumberPhase where
  | sign
  | zero
  | whole
  | point
  | fraction
  | mark
  | markSign
  | exponent
  deriving DecidableEq

def NumberPhase.final : NumberPhase → Bool
  | .zero | .whole | .fraction | .exponent => true
  | .sign | .point | .mark | .markSign => false

structure PartialNumber where
  phase : NumberPhase
  literal : NumberLiteral
  deriving DecidableEq

inductive NumberStep where
  | extend (n : PartialNumber)
  | stop
  | refuse
  deriving DecidableEq

namespace PartialNumber

def isDigit (c : Char) : Bool := '0' ≤ c && c ≤ '9'

def isMark (c : Char) : Bool := c == 'e' || c == 'E'

def start? (c : Char) : Option PartialNumber :=
  if c == '-' then some ⟨.sign, ⟨true, [], none, none⟩⟩
  else if c == '0' then some ⟨.zero, ⟨false, ['0'], none, none⟩⟩
  else if isDigit c then some ⟨.whole, ⟨false, [c], none, none⟩⟩
  else none

def addWhole (n : PartialNumber) (c : Char) (phase : NumberPhase) : PartialNumber :=
  ⟨phase, { n.literal with whole := n.literal.whole ++ [c] }⟩

def addFraction (n : PartialNumber) (c : Char) : PartialNumber :=
  ⟨.fraction, { n.literal with fraction := some (n.literal.fraction.getD [] ++ [c]) }⟩

def addExponent (n : PartialNumber) (c : Char) : PartialNumber :=
  let e := n.literal.exponent.getD ⟨false, []⟩
  ⟨.exponent, { n.literal with exponent := some { e with digits := e.digits ++ [c] } }⟩

def addMarkSign (n : PartialNumber) (negative : Bool) : PartialNumber :=
  ⟨.markSign, { n.literal with exponent := some ⟨negative, []⟩ }⟩

def withPhase (n : PartialNumber) (phase : NumberPhase) : PartialNumber := { n with phase }

/-- The next character of a literal. A zero in front stands alone before the point. -/
def next (n : PartialNumber) (c : Char) : NumberStep :=
  match n.phase with
  | .sign =>
    if c == '0' then .extend (n.addWhole c .zero)
    else if isDigit c then .extend (n.addWhole c .whole)
    else .refuse
  | .zero =>
    if isDigit c then .refuse
    else if c == '.' then .extend (n.withPhase .point)
    else if isMark c then .extend (n.withPhase .mark)
    else .stop
  | .whole =>
    if isDigit c then .extend (n.addWhole c .whole)
    else if c == '.' then .extend (n.withPhase .point)
    else if isMark c then .extend (n.withPhase .mark)
    else .stop
  | .point => if isDigit c then .extend (n.addFraction c) else .refuse
  | .fraction =>
    if isDigit c then .extend (n.addFraction c)
    else if isMark c then .extend (n.withPhase .mark)
    else .stop
  | .mark =>
    if isDigit c then .extend (n.addExponent c)
    else if c == '-' then .extend (n.addMarkSign true)
    else if c == '+' then .extend (n.addMarkSign false)
    else .refuse
  | .markSign => if isDigit c then .extend (n.addExponent c) else .refuse
  | .exponent => if isDigit c then .extend (n.addExponent c) else .stop

def number? (n : PartialNumber) : Option Number :=
  if n.phase.final then Number.ofLiteral? n.literal else none

end PartialNumber

end SolverConfig.Json
