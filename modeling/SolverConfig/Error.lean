import SolverConfig.Component

/-!
# Configuration errors

Causes of failure while a configuration tree or the registry is read, and their wording. A custom
builder may fail with an error of its own making, so wherever an error says what it is about, a text
that is none of ours can stand.
-/

namespace SolverConfig

inductive Namespace where
  | key
  | mapKey
  | object
  | builder
  | other (label : String)
  deriving DecidableEq

def Namespace.text : Namespace → String
  | .key => "key"
  | .mapKey => "map key"
  | .object => "registry object"
  | .builder => "custom builder"
  | .other label => label

/-- The keys that every node of an object may carry besides its fields. -/
inductive TypeKey where
  | type
  | valueType
  | indexType
  deriving DecidableEq

def TypeKey.text : TypeKey → String
  | .type => "Type"
  | .valueType => "ValueType"
  | .indexType => "IndexType"

def TypeKey.all : List TypeKey := [.type, .valueType, .indexType]

/-- What a name was looked up as: the type that a key of a node stands for, or another category. -/
inductive Category where
  | key (k : TypeKey)
  | other (label : String)
  deriving DecidableEq

instance : Coe TypeKey Category := ⟨.key⟩

def Category.text : Category → String
  | .key k => k.text
  | .other label => label

/-- What lacks a field, has one too many or is not available. -/
inductive Owner where
  | kind (k : Kind)
  | other (label : String)
  deriving DecidableEq

instance : Coe Kind Owner := ⟨.kind⟩

instance : Coe Component Owner := ⟨fun c => .kind (.component c)⟩

def Owner.text : Owner → String
  | .kind k => k.name
  | .other label => label

inductive Subject where
  | value
  | field (name : String)
  | node (kind : Kind)
  | builder
  | object (name : String)
  | key (name : String)
  | index (position : Nat)
  | other (label : String)
  deriving DecidableEq

def Subject.text : Subject → String
  | .value => "value"
  | .field name => "field '" ++ name ++ "'"
  | .node kind => kind.name ++ " node"
  | .builder => "builder"
  | .object name => "registry object '" ++ name ++ "'"
  | .key name => "key '" ++ name ++ "'"
  | .index position => "index " ++ toString position
  | .other label => label

inductive ConfigError where
  | missingField (owner : Owner) (field : String)
  | notFound (space : Namespace) (name : String)
  | outOfRange (index length : Nat)
  | typeMismatch (subject : Subject) (expected found : String)
  | unknownType (category : Category) (name : String)
  | unsupported (owner : Owner) (types : Instantiation)
  | duplicateName (space : Namespace) (name : String)
  | unknownField (owner : Owner) (field : String)
  deriving DecidableEq

namespace ConfigError

def message : ConfigError → String
  | .missingField owner field => "missing required field '" ++ field ++ "' in " ++ owner.text
  | .notFound space name => "no " ++ space.text ++ " named '" ++ name ++ "'"
  | .outOfRange index length =>
    "index " ++ toString index ++ " out of range for array of length " ++ toString length
  | .typeMismatch subject expected found =>
    "type mismatch for " ++ subject.text ++ ": expected " ++ expected ++ ", found " ++ found
  | .unknownType category name => "unknown " ++ category.text ++ " '" ++ name ++ "'"
  | .unsupported owner types =>
    owner.text ++ " is not available for value type " ++ types.value.name ++
      " with index type " ++ types.index.name
  | .duplicateName space name => space.text ++ " '" ++ name ++ "' is already registered"
  | .unknownField owner field => "unknown field '" ++ field ++ "' in " ++ owner.text

/-- Attributes a mismatch of a bare value to the field it was read from. -/
def inField (field : String) : ConfigError → ConfigError
  | .typeMismatch .value expected found => .typeMismatch (.field field) expected found
  | e => e

end ConfigError

end SolverConfig
