import SolverConfig.Tree.Basic

/-!
# Tables

Tables under construction. Where a table came from decides what may still be added to it: a header
defines a table once, dotted keys extend only tables that dotted keys made, and values are complete
as they stand.
-/

namespace SolverConfig.Toml

/-- Where a table came from: its own header, the headers of tables inside it alone, or dotted keys,
which may also have led through it later. -/
inductive Origin where
  | header
  | path
  | dotted
  deriving DecidableEq

mutual

/-- What a key stands for. Of an array of tables only the last can be extended. -/
inductive Item where
  | value (t : Tree)
  | table (t : Table)
  | tables (earlier : List Tree) (last : Table)

inductive Table where
  | mk (origin : Origin) (entries : List (String × Item))

end

mutual

def Item.toTree : Item → Tree
  | .value t => t
  | .table t => t.toTree
  | .tables earlier last => .array (earlier ++ [last.toTree])
termination_by structural i => i

def Table.toTree : Table → Tree
  | .mk _ entries => .map ((Item.toEntries entries).mergeSort fun a b => a.1 ≤ b.1)
termination_by structural t => t

def Item.toEntries : List (String × Item) → Tree.Entries
  | [] => []
  | (key, i) :: rest => (key, i.toTree) :: Item.toEntries rest
termination_by structural es => es

end

namespace Table

def empty (origin : Origin) : Table := .mk origin []

def origin : Table → Origin
  | .mk origin _ => origin

def entries : Table → List (String × Item)
  | .mk _ entries => entries

def find? (t : Table) (key : String) : Option Item := t.entries.lookup key

def put (t : Table) (key : String) (i : Item) : Table :=
  .mk t.origin (replace t.entries)
where
  replace : List (String × Item) → List (String × Item)
    | [] => [(key, i)]
    | (k, j) :: rest => if k = key then (k, i) :: rest else (k, j) :: replace rest

/-- The table as dotted keys leave it that lead through it. None lead through a table with a header
of its own. -/
def extend? (t : Table) : Option Table :=
  if t.origin = .header then none else some (.mk .dotted t.entries)

/-- Changes the table at a path, making the tables that are missing on the way. Tables that dotted
keys led through can no longer be defined by a header. -/
def alter (dotted : Bool) (change : Table → Option Table) : List String → Table → Option Table
  | [], t => change t
  | key :: path, t =>
    match t.find? key with
    | none =>
      let child := empty (if dotted then .dotted else .path)
      (child.alter dotted change path).map fun child => t.put key (.table child)
    | some (.table child) => do
      let child ← if dotted then child.extend? else some child
      (child.alter dotted change path).map fun child => t.put key (.table child)
    | some (.tables earlier last) =>
      (last.alter dotted change path).map fun last => t.put key (.tables earlier last)
    | some (.value _) => none

/-- Adds an entry under a key. Dotted keys in front lead to a table that dotted keys made, and
without them the entry goes to a table with a header. -/
def addEntry (t : Table) (path : List String) (key : String) (value : Tree) : Option Table :=
  t.alter true (fun t =>
    if (t.origin = .dotted) ↔ path.isEmpty then none
    else if (t.find? key).isSome then none
    else some (t.put key (.value value))) path

def define (t : Table) (path : List String) (key : String) : Option Table :=
  t.alter false (fun t =>
    match t.find? key with
    | none => some (t.put key (.table (empty .header)))
    | some (.table (.mk .path entries)) => some (t.put key (.table (.mk .header entries)))
    | some _ => none) path

def append (t : Table) (path : List String) (key : String) : Option Table :=
  t.alter false (fun t =>
    match t.find? key with
    | none => some (t.put key (.tables [] (empty .header)))
    | some (.tables earlier last) =>
      some (t.put key (.tables (earlier ++ [last.toTree]) (empty .header)))
    | some _ => none) path

end Table

end SolverConfig.Toml
