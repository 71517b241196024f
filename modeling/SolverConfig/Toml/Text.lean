import SolverConfig.Json.Text

/-!
# Strings

Basic strings have escapes and literal strings none. Either kind may run over several lines
between threefold quotes; a line break right after the opening quotes does not count. A string is
first cut off at its closing quotes and then decoded.
-/

namespace SolverConfig.Toml

def isLineChar (c : Char) : Bool := c == '\t' || (0x20 ≤ c.toNat && c.toNat != 0x7f)

def isBlank (c : Char) : Bool := c == ' ' || c == '\t'

def isLineBreak (c : Char) (next : Option Char) : Bool :=
  c == '\n' || (c == '\r' && next == some '\n')

def unescape? : Char → Option Char
  | 'b' => some '\x08'
  | 'e' => some '\x1b'
  | 'f' => some '\x0c'
  | 'n' => some '\n'
  | 'r' => some '\r'
  | 't' => some '\t'
  | '"' => some '"'
  | '\\' => some '\\'
  | _ => none

def codeWidth? : Char → Option Nat
  | 'x' => some 2
  | 'u' => some 4
  | 'U' => some 8
  | _ => none

def ofCodePoint? (n : Nat) : Option Char := if n.isValidChar then some (Char.ofNat n) else none

/-- Where a string stands while it is decoded: in its content, in an escape, in the code of one,
before an escaped line break, or in the blanks after it. -/
inductive TextPhase where
  | plain
  | escape
  | code (missing value : Nat)
  | lineEnd
  | margin
  deriving DecidableEq

structure Quoting where
  escapes : Bool
  multiline : Bool
  deriving DecidableEq

namespace Quoting

def quote (q : Quoting) : Char := if q.escapes then '"' else '\''

/-- Splits a text after the opening quotes into the content and what follows the closing quotes.
Up to two quotes right before the closing ones belong to the content. -/
def split (q : Quoting) : List Char → Option (List Char × List Char)
  | [] => none
  | [c] => if c == q.quote && !q.multiline then some ([], []) else none
  | c :: d :: s =>
    if q.escapes && c == '\\' then (q.split s).map fun (content, rest) => (c :: d :: content, rest)
    else if c == q.quote && !q.multiline then some ([], d :: s)
    else
      let quotes := min 5 ((c :: d :: s).takeWhile (· == q.quote)).length
      if 3 ≤ quotes then some (List.replicate (quotes - 3) q.quote, (c :: d :: s).drop quotes)
      else (q.split (d :: s)).map fun (content, rest) => (c :: content, rest)

def plain (q : Quoting) (c : Char) (next : Option Char) : Option (Option Char × TextPhase) :=
  if q.escapes && c == '\\' then some (none, .escape)
  else if isLineChar c || (q.multiline && isLineBreak c next) then some (some c, .plain)
  else none

def step (q : Quoting) (phase : TextPhase) (c : Char) (next : Option Char) :
    Option (Option Char × TextPhase) :=
  match phase with
  | .plain => q.plain c next
  | .escape =>
    match unescape? c, codeWidth? c with
    | some d, _ => some (some d, .plain)
    | none, some width => some (none, .code (width - 1) 0)
    | none, none =>
      if q.multiline && isBlank c then some (none, .lineEnd)
      else if q.multiline && isLineBreak c next then some (none, .margin)
      else none
  | .code missing value =>
    match Json.hexValue? c, missing with
    | none, _ => none
    | some d, 0 => (ofCodePoint? (16 * value + d)).map fun c => (some c, .plain)
    | some d, n + 1 => some (none, .code n (16 * value + d))
  | .lineEnd =>
    if isBlank c then some (none, .lineEnd)
    else if isLineBreak c next then some (none, .margin)
    else none
  | .margin =>
    if isBlank c || isLineBreak c next then some (none, .margin) else q.plain c next

def decode (q : Quoting) (phase : TextPhase) : List Char → Option (List Char)
  | [] => if phase = .plain ∨ phase = .margin then some [] else none
  | c :: s =>
    match q.step phase c s.head? with
    | some (added, phase) => (q.decode phase s).map (added.toList ++ ·)
    | none => none

def dropLineBreak : List Char → List Char
  | '\n' :: s => s
  | '\r' :: '\n' :: s => s
  | s => s

def read (q : Quoting) (s : List Char) : Option (String × List Char) :=
  match q.split s with
  | some (content, rest) =>
    let content := if q.multiline then dropLineBreak content else content
    (q.decode .plain content).map fun content => (String.ofList content, rest)
  | none => none

end Quoting

def readText : List Char → Option (String × List Char)
  | '"' :: '"' :: '"' :: s => Quoting.read ⟨true, true⟩ s
  | '\'' :: '\'' :: '\'' :: s => Quoting.read ⟨false, true⟩ s
  | '"' :: s => Quoting.read ⟨true, false⟩ s
  | '\'' :: s => Quoting.read ⟨false, false⟩ s
  | _ => none

end SolverConfig.Toml
