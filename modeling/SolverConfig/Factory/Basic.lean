import SolverConfig.Error
import SolverConfig.Parameter

/-!
# Factories

A component is described by its signature and its parameters. Unbound, the description is a
builder; bound to an executor, it is a factory. The components in the parameters of a builder are
deferred: either still builders or factories already. Those of a factory are factories.
-/

namespace SolverConfig

/-- What a parameter holds, where components are given as `δ`. -/
inductive Param (δ : Type) where
  | absent
  | value (t : Target) (v : t.Carrier)
  | factory (d : δ)
  | factories (ds : List δ)
  | operator (o : Operator)

/-- A factory is one object: its identity tells it from others of the same content. So mentions of a
factory are of the same object exactly if they are equal. -/
inductive Factory where
  | mk (id : Nat) (executor : Executor) (s : Signature) (params : List (String × Param Factory))

inductive Deferred where
  | unbound (s : Signature) (params : List (String × Param Deferred))
  | bound (f : Factory)

abbrev Params (δ : Type) := List (String × Param δ)

section
variable {δ ε : Type}

def Param.map (g : δ → ε) : Param δ → Param ε
  | .absent => .absent
  | .value t v => .value t v
  | .factory d => .factory (g d)
  | .factories ds => .factories (ds.map g)
  | .operator o => .operator o

def Params.mapComponents (g : δ → ε) (params : Params δ) : Params ε :=
  params.map fun (name, p) => (name, p.map g)

def Params.assign (params : Params δ) (name : String) (p : Param δ) : Params δ :=
  params.map fun (other, old) => (other, if other = name then p else old)

end

namespace Factory

def id : Factory → Nat
  | .mk id _ _ _ => id

def executor : Factory → Executor
  | .mk _ executor _ _ => executor

def signature : Factory → Signature
  | .mk _ _ s _ => s

def params : Factory → Params Factory
  | .mk _ _ _ params => params

def family (f : Factory) : Family := f.signature.family

def info (f : Factory) : Info := f.signature.info

end Factory

namespace Deferred

def signature : Deferred → Signature
  | .unbound s _ => s
  | .bound f => f.signature

def params : Deferred → Params Deferred
  | .unbound _ params => params
  | .bound f => f.params.mapComponents .bound

def family (d : Deferred) : Family := d.signature.family

def info (d : Deferred) : Info := d.signature.info

def intoFamily (d : Deferred) (f : Family) : Except ConfigError Deferred :=
  if d.family = f then .ok d
  else .error (.typeMismatch .builder f.name (d.family.name ++ " " ++ d.info.text))

end Deferred

def ParameterType.initial (i : Instantiation) : ParameterType → Param Deferred
  | .leaf q initial => .value (q.target i) (initial i)
  | .factories _ => .factories []
  | .optionalLeaf _ | .factory _ | .operator => .absent

def Component.initialParams (c : Component) (i : Instantiation) : Params Deferred :=
  c.parameters.map fun p => (p.name, p.type.initial i)

end SolverConfig
