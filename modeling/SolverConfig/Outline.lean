import SolverConfig.Text.Quoted

/-!
# Outlines

The structural text of a value: named records and tuples, lists and maps over atoms, written on
one line or with one element a line.
-/

namespace SolverConfig

inductive Outline where
  | atom (text : String)
  | record (name : String) (fields : List (String × Outline))
  | tuple (name : String) (items : List Outline)
  | list (items : List Outline)
  | map (entries : List (String × Outline))

namespace Outline

def text (s : String) : Outline := .atom (quoted s)

def commaSeparated (items : List String) : String := ", ".intercalate items

mutual

def flat : Outline → String
  | .atom t => t
  | .record name fields => name ++ " \x7b " ++ commaSeparated (flatFields fields) ++ " \x7d"
  | .tuple name items => name ++ "(" ++ commaSeparated (flatItems items) ++ ")"
  | .list items => "[" ++ commaSeparated (flatItems items) ++ "]"
  | .map entries => "\x7b" ++ commaSeparated (flatEntries entries) ++ "\x7d"
termination_by structural o => o

def flatItems : List Outline → List String
  | [] => []
  | o :: rest => o.flat :: flatItems rest
termination_by structural os => os

def flatFields : List (String × Outline) → List String
  | [] => []
  | (name, o) :: rest => (name ++ ": " ++ o.flat) :: flatFields rest
termination_by structural fields => fields

def flatEntries : List (String × Outline) → List String
  | [] => []
  | (key, o) :: rest => (quoted key ++ ": " ++ o.flat) :: flatEntries rest
termination_by structural entries => entries

end

def indentation (depth : Nat) : String := String.ofList (List.replicate (4 * depth) ' ')

def block (depth : Nat) (opening closing : String) (lines : List String) : String :=
  if lines.isEmpty then opening ++ closing
  else
    let body := lines.map fun line => indentation (depth + 1) ++ line ++ ",\n"
    opening ++ "\n" ++ String.join body ++ indentation depth ++ closing

mutual

def prettyAt : Outline → Nat → String
  | .atom t, _ => t
  | .record name fields, depth =>
    block depth (name ++ " \x7b") "\x7d" (prettyFields fields (depth + 1))
  | .tuple name items, depth => block depth (name ++ "(") ")" (prettyItems items (depth + 1))
  | .list items, depth => block depth "[" "]" (prettyItems items (depth + 1))
  | .map entries, depth => block depth "\x7b" "\x7d" (prettyEntries entries (depth + 1))
termination_by structural o => o

def prettyItems : List Outline → Nat → List String
  | [], _ => []
  | o :: rest, depth => o.prettyAt depth :: prettyItems rest depth
termination_by structural os => os

def prettyFields : List (String × Outline) → Nat → List String
  | [], _ => []
  | (name, o) :: rest, depth => (name ++ ": " ++ o.prettyAt depth) :: prettyFields rest depth
termination_by structural fields => fields

def prettyEntries : List (String × Outline) → Nat → List String
  | [], _ => []
  | (key, o) :: rest, depth =>
    (quoted key ++ ": " ++ o.prettyAt depth) :: prettyEntries rest depth
termination_by structural entries => entries

end

def pretty (o : Outline) : String := o.prettyAt 0

def optional : Option Outline → Outline
  | some o => .tuple "Some" [o]
  | none => .atom "None"

def ofBool (b : Bool) : Outline := .atom (if b then "true" else "false")

def ofNat (n : Nat) : Outline := .atom (toString n)

def ofInt (n : Int) : Outline := .atom (toString n)

end Outline

end SolverConfig
