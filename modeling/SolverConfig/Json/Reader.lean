import SolverConfig.Json.Number
import SolverConfig.Json.Text

/-!
# Reading JSON

The reader is a machine with a stack, run over the characters of a text. It builds its results
through a `Builder`, which may refuse a number or an entry as soon as it has been read, so the
first problem from left to right is the one reported.
-/

namespace SolverConfig.Json

inductive Fault where
  | malformed
  | repeatedKey (key : String)
  | integerRange (n : Nat)
  deriving DecidableEq

def Fault.message? : Fault → Option String
  | .malformed => none
  | .repeatedKey key => some ("duplicate key '" ++ key ++ "'")
  | .integerRange n =>
    some ("invalid value: integer `" ++ toString n ++ "`, expected an integer within i64 range")

/-- How results are made of what is read. -/
structure Builder (α : Type) where
  null : α
  boolean : Bool → α
  text : String → α
  number : Number → Except Fault α
  array : List α → α
  /-- Adds an entry to the ones read before it. -/
  entry : List (String × α) → String → α → Except Fault (List (String × α))
  object : List (String × α) → α

/-- An array or object of which a part has been read. The items of an array stand last first, and
the key of an object is that of the value being read. -/
inductive Frame (α : Type) where
  | array (items : List α)
  | object (entries : List (String × α)) (key : String)

inductive Mode (α : Type) where
  | value
  | element
  | member
  | key
  | colon
  | next
  | keyText (t : PartialText)
  | text (t : PartialText)
  | word (rest : List Char) (value : α)
  | number (n : PartialNumber)
  | done (value : α)

structure Machine (α : Type) where
  frames : List (Frame α)
  mode : Mode α

def maxDepth : Nat := 127

def isBlank (c : Char) : Bool := c == ' ' || c == '\n' || c == '\t' || c == '\r'

namespace Machine

variable {α : Type} (b : Builder α)

def start : Machine α := ⟨[], .value⟩

def refuse : Except Fault (Machine α) := .error .malformed

def finish (frames : List (Frame α)) (value : α) : Except Fault (Machine α) :=
  match frames with
  | [] => .ok ⟨[], .done value⟩
  | .array items :: rest => .ok ⟨.array (value :: items) :: rest, .next⟩
  | .object entries key :: rest =>
    match b.entry entries key value with
    | .ok entries => .ok ⟨.object entries key :: rest, .next⟩
    | .error fault => .error fault

def openFrame (frames : List (Frame α)) (frame : Frame α) (mode : Mode α) :
    Except Fault (Machine α) :=
  if frames.length < maxDepth then .ok ⟨frame :: frames, mode⟩ else refuse

def beginValue (frames : List (Frame α)) (c : Char) : Except Fault (Machine α) :=
  match c with
  | '"' => .ok ⟨frames, .text .start⟩
  | '[' => openFrame frames (.array []) .element
  | '\x7b' => openFrame frames (.object [] "") .member
  | 't' => .ok ⟨frames, .word ['r', 'u', 'e'] (b.boolean true)⟩
  | 'f' => .ok ⟨frames, .word ['a', 'l', 's', 'e'] (b.boolean false)⟩
  | 'n' => .ok ⟨frames, .word ['u', 'l', 'l'] b.null⟩
  | c =>
    match PartialNumber.start? c with
    | some n => .ok ⟨frames, .number n⟩
    | none => refuse

def afterValue (frames : List (Frame α)) (c : Char) : Except Fault (Machine α) :=
  match frames, c with
  | .array _ :: _, ',' => .ok ⟨frames, .value⟩
  | .array items :: rest, ']' => finish b rest (b.array items.reverse)
  | .object _ _ :: _, ',' => .ok ⟨frames, .key⟩
  | .object entries _ :: rest, '\x7d' => finish b rest (b.object entries)
  | _, _ => refuse

/-- One character outside strings, words and numbers, where blanks count for nothing. -/
def structural (m : Machine α) (c : Char) : Except Fault (Machine α) :=
  if isBlank c then .ok m
  else match m.mode, m.frames with
    | .value, frames => beginValue b frames c
    | .element, .array items :: rest =>
      if c == ']' then finish b rest (b.array items.reverse) else beginValue b m.frames c
    | .member, .object entries _ :: rest =>
      if c == '"' then .ok ⟨m.frames, .keyText .start⟩
      else if c == '\x7d' then finish b rest (b.object entries)
      else refuse
    | .key, frames => if c == '"' then .ok ⟨frames, .keyText .start⟩ else refuse
    | .colon, frames => if c == ':' then .ok ⟨frames, .value⟩ else refuse
    | .next, frames => afterValue b frames c
    | _, _ => refuse

def setKey (frames : List (Frame α)) (key : String) : Except Fault (Machine α) :=
  match frames with
  | .object entries _ :: rest => .ok ⟨.object entries key :: rest, .colon⟩
  | _ => refuse

def finishNumber (frames : List (Frame α)) (n : PartialNumber) : Except Fault (Machine α) :=
  match n.number? with
  | none => refuse
  | some number =>
    match b.number number with
    | .ok value => finish b frames value
    | .error fault => .error fault

def step (m : Machine α) (c : Char) : Except Fault (Machine α) :=
  match m.mode with
  | .keyText t =>
    match t.next c with
    | .extend t => .ok ⟨m.frames, .keyText t⟩
    | .finish content => setKey m.frames (String.ofList content)
    | .refuse => refuse
  | .text t =>
    match t.next c with
    | .extend t => .ok ⟨m.frames, .text t⟩
    | .finish content => finish b m.frames (b.text (String.ofList content))
    | .refuse => refuse
  | .word (d :: rest) value =>
    if c == d then
      match rest with
      | [] => finish b m.frames value
      | _ => .ok ⟨m.frames, .word rest value⟩
    else refuse
  | .number n =>
    match n.next c with
    | .extend n => .ok ⟨m.frames, .number n⟩
    | .stop =>
      match finishNumber b m.frames n with
      | .ok m => structural b m c
      | .error fault => .error fault
    | .refuse => refuse
  | _ => structural b m c

def run (m : Machine α) : List Char → Except Fault (Machine α)
  | [] => .ok m
  | c :: rest =>
    match step b m c with
    | .ok m => run m rest
    | .error fault => .error fault

def result (m : Machine α) : Except Fault α :=
  match m.mode, m.frames with
  | .done value, [] => .ok value
  | .number n, frames =>
    match finishNumber b frames n with
    | .ok ⟨[], .done value⟩ => .ok value
    | .ok _ => .error .malformed
    | .error fault => .error fault
  | _, _ => .error .malformed

end Machine

def read {α : Type} (b : Builder α) (text : String) : Except Fault α :=
  match Machine.run b .start text.toList with
  | .ok m => m.result b
  | .error fault => .error fault

end SolverConfig.Json
