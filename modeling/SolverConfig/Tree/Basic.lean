import SolverConfig.Error
import SolverConfig.Number.Notation

/-!
# Configuration trees

A tree is empty, a leaf, an array of trees or a map from keys to trees. Maps keep the order of
their entries.
-/

namespace SolverConfig

inductive Tree where
  | empty
  | boolean (b : Bool)
  | integer (n : Int64)
  | real (x : Double)
  | text (s : String)
  | array (items : List Tree)
  | map (entries : List (String × Tree))
  deriving Inhabited

namespace Tree

abbrev Entries := List (String × Tree)

def isEmpty : Tree → Bool
  | .empty => true
  | _ => false

/-- Booleans, numbers and texts are leaves; an empty tree is none. -/
def isLeaf : Tree → Bool
  | .boolean _ | .integer _ | .real _ | .text _ => true
  | _ => false

def isArray : Tree → Bool
  | .array _ => true
  | _ => false

def isMap : Tree → Bool
  | .map _ => true
  | _ => false

def asBool? : Tree → Option Bool
  | .boolean b => some b
  | _ => none

def asInteger? : Tree → Option Int64
  | .integer n => some n
  | _ => none

def asReal? : Tree → Option Double
  | .integer n => some (.ofInt n.toInt)
  | .real x => some x
  | _ => none

def asText? : Tree → Option String
  | .text s => some s
  | _ => none

def asArray? : Tree → Option (List Tree)
  | .array items => some items
  | _ => none

def asMap? : Tree → Option Entries
  | .map entries => some entries
  | _ => none

def find? (t : Tree) (key : String) : Option Tree := t.asMap?.bind (List.lookup key)

def describe : Tree → String
  | .empty => "empty node"
  | .boolean b => "boolean " ++ toString b
  | .integer n => "integer " ++ toString n.toInt
  | .real x => "real " ++ String.ofList (x.text .plain)
  | .text s => "string " ++ quoted s
  | .array items => "array of " ++ toString items.length ++ " elements"
  | .map _ => "map"

def mismatch (t : Tree) (subject : Subject) (expected : String) : ConfigError :=
  .typeMismatch subject expected t.describe

def atKey (t : Tree) (key : String) : Except ConfigError Tree :=
  match t with
  | .map entries =>
    match entries.lookup key with
    | some child => .ok child
    | none => .error (.notFound .key key)
  | t => .error (t.mismatch (.key key) "map")

def atIndex (t : Tree) (position : Nat) : Except ConfigError Tree :=
  match t with
  | .array items =>
    match items[position]? with
    | some child => .ok child
    | none => .error (.outOfRange position items.length)
  | t => .error (t.mismatch (.index position) "array")

/-- Builds a map from entries, refusing the first key that occurs again. -/
def ofEntries (entries : Entries) : Except ConfigError Tree :=
  go [] entries
where
  go (seen : List String) : Entries → Except ConfigError Tree
    | [] => .ok (.map entries)
    | (key, _) :: rest =>
      if seen.contains key then .error (.duplicateName .mapKey key) else go (key :: seen) rest

mutual

def outline : Tree → Outline
  | .empty => .atom "Empty"
  | .boolean b => .tuple "Boolean" [.ofBool b]
  | .integer n => .tuple "Integer" [.ofInt n.toInt]
  | .real x => .tuple "Real" [.atom (String.ofList (x.text .structural))]
  | .text s => .tuple "String" [.text s]
  | .array items => .tuple "Array" [.list (outlineItems items)]
  | .map entries => .tuple "Map" [.map (outlineEntries entries)]
termination_by structural t => t

def outlineItems : List Tree → List Outline
  | [] => []
  | t :: rest => t.outline :: outlineItems rest
termination_by structural ts => ts

def outlineEntries : List (String × Tree) → List (String × Outline)
  | [] => []
  | (key, t) :: rest => (key, t.outline) :: outlineEntries rest
termination_by structural es => es

end

end Tree

end SolverConfig
