import SolverConfig.Toml.Value

/-!
# Documents

A document is a sequence of lines: headers of tables and entries for the table whose header came
last.
-/

namespace SolverConfig

namespace Toml

inductive Statement where
  | table (path : List String) (key : String)
  | element (path : List String) (key : String)
  | entry (e : Entry)

def readHeader (closing : List Char) (s : List Char) :
    Option ((List String × String) × List Char) :=
  match readKey (skipBlanks s) with
  | some (key, rest) =>
    if closing.isPrefixOf rest then some (key, rest.drop closing.length) else none
  | none => none

def readStatement : Reader Statement
  | '[' :: '[' :: s =>
    (readHeader [']', ']'] s).map fun ((path, key), rest) => (.element path key, rest)
  | '[' :: s =>
    (readHeader [']'] s).map fun ((path, key), rest) => (.table path key, rest)
  | s =>
    let skip (s : List Char) : Option (List Char) := some (skipBlanks s)
    (readEntry skip (readValue maxDepth) s).map fun (e, rest) => (.entry e, rest)

def lineEnds (s : List Char) : Bool :=
  match skipBlanks s with
  | [] => true
  | c :: s => c == '#' || isLineBreak c s.head?

def readStatements (s : List Char) : Option (List Statement) :=
  match skipLines false s with
  | none => none
  | some [] => some []
  | some t =>
    match readStatement t with
    | none => none
    | some (statement, rest) =>
      if rest.length < s.length ∧ lineEnds rest then
        (readStatements rest).map (statement :: ·)
      else none
termination_by s.length

/-- A document of which some statements have been carried out: the table of all its entries, and
the path of the last header. -/
structure Document where
  root : Table
  header : List String

namespace Document

def empty : Document := ⟨.empty .header, []⟩

def run (d : Document) : Statement → Option Document
  | .table path key => (d.root.define path key).map (⟨·, path ++ [key]⟩)
  | .element path key => (d.root.append path key).map (⟨·, path ++ [key]⟩)
  | .entry e =>
    let add (t : Table) : Option Table := t.addEntry e.path e.key e.value
    (d.root.alter false add d.header).map (⟨·, d.header⟩)

end Document

def dropMark : List Char → List Char
  | '\ufeff' :: s => s
  | s => s

end Toml

def Tree.ofToml? (text : String) : Option Tree :=
  match Toml.readStatements (Toml.dropMark text.toList) with
  | some statements =>
    (statements.foldlM Toml.Document.run Toml.Document.empty).map fun d => d.root.toTree
  | none => none

end SolverConfig
