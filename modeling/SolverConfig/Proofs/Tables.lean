import SolverConfig.Field
import SolverConfig.Parameter

/-!
# The tables of a component agree

The fields of a node, the fields that are read and the parameters are tables of their own. Every
field is read, once, into a parameter of its name, and that parameter takes what the shape of the
field lets through.
-/

namespace SolverConfig

def Quantity.shape : Quantity → Shape
  | .fixed _ | .real => .scalar
  | .scalar => .value
  | .indices => .array

namespace ParameterType

def quantity? : ParameterType → Option Quantity
  | .leaf q _ | .optionalLeaf q => some q
  | .factory _ | .factories _ | .operator => none

def shape : ParameterType → Shape
  | .leaf q _ | .optionalLeaf q => q.shape
  | .factory f => .object f
  | .factories f => .objects f
  | .operator => .reference

end ParameterType

def Shape.isConverted : Shape → Bool
  | .scalar | .value | .array => true
  | .object _ | .objects _ | .reference => false

namespace Component

def quantity? (c : Component) (name : String) : Option Quantity :=
  (c.parameter? name).bind fun p => p.type.quantity?

theorem reads_eq (c : Component) : c.reads = c.fields.map Field.name := by
  cases c <;> rfl

theorem nodup_names_fields (c : Component) : (c.fields.map Field.name).Nodup := by
  cases c <;> decide

theorem names_parameters_perm (c : Component) :
    (c.parameters.map Parameter.name).Perm (c.fields.map Field.name) := by
  cases c <;> decide

/-- The parameter of a field is read from trees of the shape of the field. -/
theorem shape_parameter? {c : Component} {f : Field} (hf : f ∈ c.fields) :
    (c.parameter? f.name).map (fun p => p.type.shape) = some f.shape := by
  have h : ∀ f ∈ c.fields, (c.parameter? f.name).map (fun p => p.type.shape) = some f.shape := by
    cases c <;> decide
  exact h f hf

theorem shape_of_parameter? {c : Component} {f : Field} {p : Parameter} (hf : f ∈ c.fields)
    (hp : c.parameter? f.name = some p) : p.type.shape = f.shape := by
  have h := shape_parameter? hf
  rw [hp] at h
  exact Option.some.inj h

end Component

end SolverConfig
