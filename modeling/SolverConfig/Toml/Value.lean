import SolverConfig.Toml.Scalar
import SolverConfig.Toml.Table
import SolverConfig.Toml.Text

/-!
# Values

Strings, scalars, arrays and inline tables at the front of a text. Arrays and inline tables are
read by recursion on how deep they may still nest.
-/

namespace SolverConfig.Toml

abbrev Reader (α : Type) := List Char → Option (α × List Char)

/-- Arrays and inline tables nest no deeper than this, and nor do the parts of one key. -/
def maxDepth : Nat := 80

def skipBlanks (s : List Char) : List Char := s.dropWhile isBlank

def skipLines (inComment : Bool) : List Char → Option (List Char)
  | [] => some []
  | c :: s =>
    if isLineBreak c s.head? then skipLines (inComment && c == '\r') s
    else if inComment then if isLineChar c then skipLines true s else none
    else if isBlank c then skipLines false s
    else if c == '#' then skipLines true s
    else some (c :: s)

/-- The elements between brackets, after the opening one. A comma stands after each, and may be
left out after the last. -/
def readElements {α : Type} (read : Reader α) (closing : Char) (s : List Char) :
    Option (List α × List Char) :=
  match skipLines false s with
  | none | some [] => none
  | some (c :: t) =>
    if c == closing then some ([], t)
    else
      match read (c :: t) with
      | none => none
      | some (a, rest) =>
        match skipLines false rest with
        | some (',' :: rest) =>
          if rest.length < s.length then
            (readElements read closing rest).map fun (as, rest) => (a :: as, rest)
          else none
        | some (c :: rest) => if c == closing then some ([a], rest) else none
        | _ => none
termination_by s.length

section Keys

def isBareChar (c : Char) : Bool := c.isAlphanum || c == '_' || c == '-'

def readKeyPart (s : List Char) : Option (String × List Char) :=
  match s with
  | '"' :: s => Quoting.read ⟨true, false⟩ s
  | '\'' :: s => Quoting.read ⟨false, false⟩ s
  | s =>
    let part := s.takeWhile isBareChar
    if part.isEmpty then none else some (String.ofList part, s.dropWhile isBareChar)

def readKeyParts (s : List Char) : Option ((List String × String) × List Char) :=
  match readKeyPart s with
  | none => none
  | some (part, rest) =>
    match skipBlanks rest with
    | '.' :: rest =>
      if (skipBlanks rest).length < s.length then
        (readKeyParts (skipBlanks rest)).map fun ((path, key), rest) => ((part :: path, key), rest)
      else none
    | rest => some (([], part), rest)
termination_by s.length

def readKey : Reader (List String × String) := fun s =>
  (readKeyParts s).filter fun ((path, _), _) => path.length < maxDepth

structure Entry where
  path : List String
  key : String
  value : Tree

/-- A key, an equals sign and a value. `skip` is what is done with the space around the sign: inside
braces it may hold line breaks and comments, elsewhere only blanks. -/
def readEntry (skip : List Char → Option (List Char)) (read : Reader Tree) : Reader Entry :=
  fun s => do
    let ((path, key), rest) ← readKey s
    let rest ← takeChar '=' (← skip rest)
    let (value, rest) ← read (← skip rest)
    return (⟨path, key, value⟩, rest)

end Keys

def inlineTable (entries : List Entry) : Option Tree :=
  (entries.foldlM (fun (t : Table) e => t.addEntry e.path e.key e.value) (.empty .header)).map
    Table.toTree

def readLeaf : Reader Tree
  | s@('"' :: _) | s@('\'' :: _) => (readText s).map fun (t, rest) => (.text t, rest)
  | s => readScalar s

def readValue : (depth : Nat) → Reader Tree
  | depth + 1, '[' :: rest =>
    (readElements (readValue depth) ']' rest).map fun (items, rest) => (.array items, rest)
  | depth + 1, '\x7b' :: rest =>
    match readElements (readEntry (skipLines false) (readValue depth)) '\x7d' rest with
    | some (entries, rest) => (inlineTable entries).map fun t => (t, rest)
    | none => none
  | _, s => readLeaf s

end SolverConfig.Toml
