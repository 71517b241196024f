import SolverConfig.Json.Reader
import SolverConfig.Tree.Basic

/-!
# JSON values and trees

A text is read into a tree either at once, where repeated keys and integers beyond 64 signed bits
are faults, or through a generic value, where the last of repeated entries wins at the place of the
first.
-/

namespace SolverConfig

namespace Json

inductive Value where
  | null
  | boolean (b : Bool)
  | number (n : Number)
  | text (s : String)
  | array (items : List Value)
  | object (entries : List (String × Value))

/-- Replaces the entry for a key where it stands, or adds one at the end. -/
def putEntry {α : Type} (key : String) (value : α) : List (String × α) → List (String × α)
  | [] => [(key, value)]
  | (k, v) :: rest => if k = key then (k, value) :: rest else (k, v) :: putEntry key value rest

namespace Value

def builder : Builder Value where
  null := .null
  boolean := .boolean
  text := .text
  number n := .ok (.number n)
  array := .array
  entry entries key value := .ok (putEntry key value entries)
  object := .object

def read (text : String) : Except Fault Value := Json.read builder text

end Value

def Number.toTree : Number → Except Nat Tree
  | .unsigned n => if n ≤ Int64.maxValue.toInt then .ok (.integer (Int64.ofInt n)) else .error n
  | .negative n => .ok (.integer (Int64.ofInt (-(n : Int))))
  | .real x => .ok (.real x)

def treeBuilder : Builder Tree where
  null := .empty
  boolean := .boolean
  text := .text
  number n := n.toTree.mapError .integerRange
  array := .array
  entry entries key value :=
    if (entries.lookup key).isSome then .error (.repeatedKey key)
    else .ok (entries ++ [(key, value)])
  object := .map

mutual

def Value.toTree : Value → Except ConfigError Tree
  | .null => .ok .empty
  | .boolean b => .ok (.boolean b)
  | .number n =>
    n.toTree.mapError fun n =>
      .typeMismatch .value "an integer within i64 range" ("integer " ++ toString n)
  | .text s => .ok (.text s)
  | .array items =>
    match Value.toTrees items with
    | .ok trees => .ok (.array trees)
    | .error e => .error e
  | .object entries =>
    match Value.toEntries entries with
    | .ok trees => .ok (.map trees)
    | .error e => .error e
termination_by structural v => v

def Value.toTrees : List Value → Except ConfigError (List Tree)
  | [] => .ok []
  | v :: rest =>
    match v.toTree with
    | .ok t =>
      match Value.toTrees rest with
      | .ok trees => .ok (t :: trees)
      | .error e => .error e
    | .error e => .error e
termination_by structural vs => vs

def Value.toEntries : List (String × Value) → Except ConfigError (List (String × Tree))
  | [] => .ok []
  | (key, v) :: rest =>
    match v.toTree with
    | .ok t =>
      match Value.toEntries rest with
      | .ok trees => .ok ((key, t) :: trees)
      | .error e => .error e
    | .error e => .error e
termination_by structural es => es

end

end Json

def Tree.ofJson (text : String) : Except Json.Fault Tree := Json.read Json.treeBuilder text

end SolverConfig
