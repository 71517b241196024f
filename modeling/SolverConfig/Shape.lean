import SolverConfig.Tree.Basic

/-!
# Shapes

What a field accepts by form alone, before its value is read.
-/

namespace SolverConfig

inductive Shape where
  | scalar
  | value
  | array
  | object (f : Family)
  | objects (f : Family)
  | reference
  deriving DecidableEq

namespace Shape

/-- A nested node, or the name of a registered object. -/
def isObject (t : Tree) : Bool := t.isMap || t.asText?.isSome

def isArrayOf (p : Tree → Bool) (t : Tree) : Bool :=
  match t.asArray? with
  | some items => items.all p
  | none => false

def accepts : Shape → Tree → Bool
  | .scalar, t => t.isLeaf
  | .value, t => t.isLeaf || isArrayOf Tree.isLeaf t
  | .array, t => isArrayOf Tree.isLeaf t
  | .object _, t => isObject t
  | .objects _, t => isObject t || isArrayOf isObject t
  | .reference, t => t.asText?.isSome

def expected : Shape → String
  | .scalar => "scalar"
  | .value => "number or [re, im] pair"
  | .array => "array of scalars"
  | .object f => "nested " ++ f.name ++ " or registry name"
  | .objects f => f.name ++ " object or array of objects"
  | .reference => "registry name"

def outline : Shape → Outline
  | .scalar => .atom "Scalar"
  | .value => .atom "Value"
  | .array => .atom "Array"
  | .object f => .tuple "Object" [.atom (Vocabulary.label f)]
  | .objects f => .tuple "Objects" [.atom (Vocabulary.label f)]
  | .reference => .atom "Reference"

def all : List Shape :=
  [.scalar, .value, .array, .object .linOp, .object .criterion, .objects .linOp,
    .objects .criterion, .reference]

end Shape

end SolverConfig
