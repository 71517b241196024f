/-!
# JSON strings

The characters of a string after its opening quote, read one at a time.
-/

namespace SolverConfig.Json

/-- What the characters of a string so far end in. An escape of a code unit collects four
hexadecimal digits, the second one of a surrogate pair after the first. -/
inductive TextPhase where
  | plain
  | escape
  | unit (high : Option Nat) (missing : Nat) (value : Nat)
  | pair (high : Nat)
  | pairMark (high : Nat)
  deriving DecidableEq

structure PartialText where
  phase : TextPhase
  content : List Char
  deriving DecidableEq

inductive TextStep where
  | extend (t : PartialText)
  | finish (content : List Char)
  | refuse
  deriving DecidableEq

def hexValue? (c : Char) : Option Nat :=
  if '0' ≤ c && c ≤ '9' then some (c.toNat - '0'.toNat)
  else if 'a' ≤ c && c ≤ 'f' then some (c.toNat - 'a'.toNat + 10)
  else if 'A' ≤ c && c ≤ 'F' then some (c.toNat - 'A'.toNat + 10)
  else none

def unescape? : Char → Option Char
  | '"' => some '"'
  | '\\' => some '\\'
  | '/' => some '/'
  | 'b' => some '\x08'
  | 'f' => some '\x0c'
  | 'n' => some '\n'
  | 'r' => some '\r'
  | 't' => some '\t'
  | _ => none

namespace PartialText

def start : PartialText := ⟨.plain, []⟩

def push (t : PartialText) (c : Char) : TextStep := .extend ⟨.plain, c :: t.content⟩

def withPhase (t : PartialText) (phase : TextPhase) : TextStep := .extend { t with phase }

def isHigh (unit : Nat) : Bool := 0xd800 ≤ unit && unit < 0xdc00

def isLow (unit : Nat) : Bool := 0xdc00 ≤ unit && unit < 0xe000

/-- A complete code unit: a character, the first of a pair, or the second after the first.
Surrogates stand in pairs only. -/
def addUnit (t : PartialText) (high : Option Nat) (unit : Nat) : TextStep :=
  match high with
  | none =>
    if isHigh unit then t.withPhase (.pair unit)
    else if isLow unit then .refuse
    else t.push (Char.ofNat unit)
  | some h =>
    if isLow unit then t.push (Char.ofNat (0x10000 + (h - 0xd800) * 0x400 + (unit - 0xdc00)))
    else .refuse

/-- The next character of a string. Control characters stand escaped only. -/
def next (t : PartialText) (c : Char) : TextStep :=
  match t.phase with
  | .plain =>
    if c == '"' then .finish t.content.reverse
    else if c == '\\' then t.withPhase .escape
    else if c.toNat < 0x20 then .refuse
    else t.push c
  | .escape =>
    if c == 'u' then t.withPhase (.unit none 3 0)
    else match unescape? c with
      | some d => t.push d
      | none => .refuse
  | .unit high missing value =>
    match hexValue? c with
    | none => .refuse
    | some d =>
      let value := 16 * value + d
      match missing with
      | 0 => t.addUnit high value
      | n + 1 => t.withPhase (.unit high n value)
  | .pair high => if c == '\\' then t.withPhase (.pairMark high) else .refuse
  | .pairMark high => if c == 'u' then t.withPhase (.unit (some high) 3 0) else .refuse

end PartialText

end SolverConfig.Json
