import SolverConfig.Dispatch
import SolverConfig.Field
import SolverConfig.Parse.Outcome
import SolverConfig.Registry
import SolverConfig.Tree.Convert

/-!
# Parsing

A tree is parsed into a builder of a requested kind. A node passes its stages in order: its types,
its `Type`, the component, the names of its fields, their presence and shapes, and only then their
values. Nested objects are parsed by structural recursion: every subtree is first made a `Part`,
which says how it reads as an object under a family and the types of the node above it.
-/

namespace SolverConfig

/-- What is done with fields that a component does not have: refused, or ignored with a warning. -/
inductive Strictness where
  | strict
  | lenient
  deriving DecidableEq

/-- What a parse reads besides the tree. A custom builder is a handle `β`; `custom` says what the
builder of a handle makes of a node. -/
structure Context (β : Type) where
  registry : Registry β
  custom : β → Registry β → Tree → Instantiation → Outcome Deferred
  strictness : Strictness

def Context.bare (s : Strictness) : Context Empty := ⟨.empty, nofun, s⟩

/-- A subtree as the node above it sees it: how it reads as one object, and if it is an array, how
each of its elements does. -/
structure Part where
  tree : Tree
  object : Family → Instantiation → Outcome Deferred
  elements : Option (List (Family → Instantiation → Outcome Deferred))

def typeText (key : TypeKey) (t : Tree) : Except ConfigError String :=
  match t.asText? with
  | some s => .ok s
  | none => .error (t.mismatch (.field key.text) "type name")

def resolveType (α : Type) [Vocabulary α] (key : TypeKey) (node : Tree) (inherited : α) :
    Except ConfigError α :=
  match node.find? key.text with
  | none => .ok inherited
  | some t =>
    match typeText key t with
    | .error e => .error e
    | .ok s =>
      match Vocabulary.find? α s with
      | some a => .ok a
      | none => .error (.unknownType key s)

namespace Instantiation

def resolve (node : Tree) (inherited : Instantiation) : Except ConfigError Instantiation :=
  match resolveType ValueType .valueType node inherited.value with
  | .error e => .error e
  | .ok value =>
    match resolveType IndexType .indexType node inherited.index with
    | .error e => .error e
    | .ok index => .ok ⟨value, index⟩

def ofNames (value index : String) : Except ConfigError Instantiation :=
  match Vocabulary.find? ValueType value with
  | none => .error (.unknownType TypeKey.valueType value)
  | some v =>
    match Vocabulary.find? IndexType index with
    | none => .error (.unknownType TypeKey.indexType index)
    | some i => .ok ⟨v, i⟩

end Instantiation

/-- The `Type` of a node. A node of one requested component may leave it out. -/
def typeName (kind : Kind) (node : Tree) : Except ConfigError String :=
  match node.find? TypeKey.type.text with
  | some t => typeText .type t
  | none =>
    match kind with
    | .component c => .ok c.name
    | .family _ => .error (.missingField kind TypeKey.type.text)

def Kind.admits (kind : Kind) (c : Component) : Bool :=
  match kind with
  | .family f => c.family == f
  | .component expected => c == expected

namespace Component

/-- The parameter set to read for a component, where a node of a kind may name it. -/
def select (c : Component) (kind : Kind) (types : Instantiation) : Except ConfigError Signature :=
  if kind.admits c then c.parameterSet types
  else .error (.typeMismatch (.field TypeKey.type.text) kind.name c.name)

def isReserved (key : String) : Bool := TypeKey.all.any fun k => k.text == key

def knows (c : Component) (key : String) : Bool := isReserved key || (c.field? key).isSome

def checkKeys (c : Component) (strictness : Strictness) (entries : Tree.Entries) : Outcome Unit :=
  let unknown := (entries.map Prod.fst).filter fun key => !c.knows key
  match strictness, unknown with
  | .strict, key :: _ => .ofExcept (.error (.unknownField c key))
  | .strict, [] => .ofExcept (.ok ())
  | .lenient, keys => .warn (keys.map fun key => ⟨c, key⟩)

def checkShapes (c : Component) (entries : Tree.Entries) : List Field → Except ConfigError Unit
  | [] => .ok ()
  | f :: rest =>
    match entries.lookup f.name with
    | none =>
      if f.required then .error (.missingField c f.name)
      else c.checkShapes entries rest
    | some t =>
      if f.shape.accepts t then c.checkShapes entries rest
      else .error (t.mismatch (.field f.name) f.shape.expected)

end Component

def collect {α : Type} : List (Outcome α) → Outcome (List α)
  | [] => pure []
  | o :: rest => do
    let a ← o
    let as ← collect rest
    return a :: as

namespace Part

def objects (p : Part) (f : Family) (types : Instantiation) : Outcome (List Deferred) :=
  match p.elements with
  | some elements => collect (elements.map fun read => read f types)
  | none => do
    let d ← p.object f types
    return [d]

end Part

namespace Context

variable {β : Type} (ctx : Context β)

def readField (types : Instantiation) (parameter : Parameter) (p : Part) :
    Outcome (Param Deferred) :=
  match parameter.type with
  | .leaf q _ | .optionalLeaf q =>
    .ofExcept (((q.target types).convert p.tree).mapError (.inField parameter.name)
      |>.map (.value (q.target types)))
  | .factory family => do
    let d ← p.object family types
    return .factory d
  | .factories family => do
    let ds ← p.objects family types
    return .factories ds
  | .operator =>
    match p.tree.asText? with
    | some name => .ofExcept ((ctx.registry.operator name).map .operator)
    | none => .ofExcept (.error (p.tree.mismatch (.field parameter.name) "registry name"))

/-- Reads fields of a node into the parameters of their names. A field that the node leaves out
changes nothing. -/
def readFields (c : Component) (types : Instantiation) (parts : List (String × Part)) :
    List String → Params Deferred → Outcome (Params Deferred)
  | [], params => pure params
  | name :: rest, params =>
    match parts.lookup name, c.parameter? name with
    | some part, some parameter => do
      let p ← ctx.readField types parameter part
      readFields c types parts rest (params.assign name p)
    | _, _ => readFields c types parts rest params

def readComponent (c : Component) (s : Signature) (types : Instantiation) (entries : Tree.Entries)
    (parts : List (String × Part)) : Outcome Deferred := do
  c.checkKeys ctx.strictness entries
  c.checkShapes entries c.fields
  let initial := s.component.initialParams types
  let params ← ctx.readFields s.component types parts s.component.reads initial
  return .unbound s params

def readCustom (kind : Kind) (name : String) (node : Tree) (types : Instantiation) :
    Outcome Deferred :=
  match ctx.registry.builder? name, kind with
  | none, _ => .ofExcept (.error (.unknownType TypeKey.type name))
  | some _, .component c =>
    .ofExcept (.error (.typeMismatch (.field TypeKey.type.text) c.name name))
  | some b, .family _ => ctx.custom b ctx.registry node types

def dispatch (kind : Kind) (entries : Tree.Entries) (parts : List (String × Part))
    (inherited : Instantiation) : Outcome Deferred := do
  let node := Tree.map entries
  let types ← Instantiation.resolve node inherited
  let name ← typeName kind node
  match Vocabulary.find? Component name with
  | none => ctx.readCustom kind name node types
  | some c =>
    let s ← c.select kind types
    ctx.readComponent c s types entries parts

def notMap (kind : Kind) (t : Tree) : Outcome Deferred :=
  .ofExcept (.error (t.mismatch (.node kind) "map"))

mutual

/-- A subtree as the node above it sees it. A text is the name of a registered factory. -/
def part : Tree → Part
  | .map entries =>
    let object (f : Family) (types : Instantiation) : Outcome Deferred := do
      let d ← ctx.dispatch (.family f) entries (parts entries) types
      d.intoFamily f
    ⟨.map entries, object, none⟩
  | .array items =>
    ⟨.array items, fun f _ => notMap (.family f) (.array items), some (elements items)⟩
  | .text s => ⟨.text s, fun f _ => .ofExcept ((ctx.registry.factory f s).map .bound), none⟩
  | .empty => ⟨.empty, fun f _ => notMap (.family f) .empty, none⟩
  | .boolean b => ⟨.boolean b, fun f _ => notMap (.family f) (.boolean b), none⟩
  | .integer n => ⟨.integer n, fun f _ => notMap (.family f) (.integer n), none⟩
  | .real x => ⟨.real x, fun f _ => notMap (.family f) (.real x), none⟩
termination_by structural t => t

def parts : List (String × Tree) → List (String × Part)
  | [] => []
  | (key, t) :: rest => (key, part t) :: parts rest
termination_by structural entries => entries

def elements : List Tree → List (Family → Instantiation → Outcome Deferred)
  | [] => []
  | t :: rest => (part t).object :: elements rest
termination_by structural items => items

end

theorem lookup_parts (entries : List (String × Tree)) (key : String) :
    (ctx.parts entries).lookup key = (entries.lookup key).map ctx.part := by
  induction entries with
  | nil => rfl
  | cons entry rest ih =>
    obtain ⟨k, t⟩ := entry
    simp only [parts, List.lookup_cons]
    split <;> simp [ih]

theorem elements_eq_map (items : List Tree) :
    ctx.elements items = items.map fun t => (ctx.part t).object := by
  induction items with
  | nil => rfl
  | cons t rest ih => simp [elements, ih]

@[simp] theorem tree_part (t : Tree) : (ctx.part t).tree = t := by
  cases t <;> rfl

/-- Parses a tree into a builder of a kind. `inherited` are the types that hold at its root. -/
def parse (kind : Kind) (tree : Tree) (inherited : Instantiation) : Outcome Deferred :=
  match tree with
  | .map entries => ctx.dispatch kind entries (ctx.parts entries) inherited
  | t => notMap kind t

def parseFamily (f : Family) (tree : Tree) (inherited : Instantiation) : Outcome Deferred := do
  let d ← ctx.parse (.family f) tree inherited
  d.intoFamily f

theorem object_part_map (entries : Tree.Entries) (f : Family) (types : Instantiation) :
    (ctx.part (.map entries)).object f types = ctx.parseFamily f (.map entries) types := rfl

end Context

end SolverConfig
