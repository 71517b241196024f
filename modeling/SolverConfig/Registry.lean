import SolverConfig.Factory.Outline

/-!
# The registry

Named objects that configurations refer to, and custom builders for further `Type` names. The two
kinds of entries have namespaces of their own, and no name is ever overwritten.
-/

namespace SolverConfig

inductive Object where
  | operator (o : Operator)
  | factory (f : Factory)

inductive ObjectKind where
  | operator
  | factory (f : Family)
  deriving DecidableEq

def ObjectKind.describe : ObjectKind → String
  | .operator => "linear operator"
  | .factory .linOp => "linear operator factory"
  | .factory .criterion => "criterion factory"

inductive ObjectType where
  | dense (element : ValueType)
  | factory (s : Signature)
  deriving DecidableEq

namespace Component

def modulePath : Component → String
  | .cg | .bicg | .bicgstab | .cgs | .fcg | .gmres | .idr => "solvent_core::solver::krylov"
  | .ir => "solvent_core::solver::ir"
  | .lowerTrs | .upperTrs => "solvent_core::solver::triangular"
  | .jacobi => "solvent_core::preconditioner::jacobi"
  | .ilu => "solvent_core::preconditioner::ilu"
  | .iteration | .time | .combined => "solvent_core::stop"
  | .residualNorm | .implicitResidualNorm => "solvent_core::stop::residual_norm"

end Component

def ObjectType.path : ObjectType → String
  | .dense element => "solvent_core::lin_op::Dense<" ++ element.path ++ ">"
  | .factory s =>
    let name := s.component.modulePath ++ "::" ++ s.component.label ++ "Factory"
    match s.typePaths with
    | [] => name
    | paths => name ++ "<" ++ Outline.commaSeparated paths ++ ">"

namespace Object

def kind : Object → ObjectKind
  | .operator _ => .operator
  | .factory f => .factory f.family

def type : Object → ObjectType
  | .operator o => .dense o.element
  | .factory f => .factory f.signature

def describe (o : Object) : String := o.kind.describe

def outline : Object → Outline
  | .operator o => .tuple "LinOp" [o.outline]
  | .factory f => f.familyOutline

end Object

/-- Objects and custom builders by name, in the order in which they were registered. -/
structure Registry (β : Type) where
  objects : List (String × Object) := []
  builders : List (String × β) := []

namespace Registry

variable {β : Type}

def empty : Registry β := ⟨[], []⟩

def containsObject (r : Registry β) (name : String) : Bool := (r.objects.lookup name).isSome

def containsBuilder (r : Registry β) (name : String) : Bool := (r.builders.lookup name).isSome

def emplaceObject (r : Registry β) (name : String) (o : Object) :
    Except ConfigError (Registry β) :=
  if r.containsObject name then .error (.duplicateName .object name)
  else .ok { r with objects := r.objects ++ [(name, o)] }

def emplaceBuilder (r : Registry β) (name : String) (b : β) : Except ConfigError (Registry β) :=
  if r.containsBuilder name then .error (.duplicateName .builder name)
  else .ok { r with builders := r.builders ++ [(name, b)] }

def emplaceBuilders (r : Registry β) : List (String × β) → Except ConfigError (Registry β)
  | [] => .ok r
  | (name, b) :: rest =>
    match r.emplaceBuilder name b with
    | .ok r => r.emplaceBuilders rest
    | .error e => .error e

def ofBuilders (builders : List (String × β)) : Except ConfigError (Registry β) :=
  empty.emplaceBuilders builders

def object (r : Registry β) (name : String) : Except ConfigError Object :=
  match r.objects.lookup name with
  | some o => .ok o
  | none => .error (.notFound .object name)

def builder? (r : Registry β) (name : String) : Option β := r.builders.lookup name

def wrongObject (name expected : String) (o : Object) : ConfigError :=
  .typeMismatch (.object name) expected o.describe

def operator (r : Registry β) (name : String) : Except ConfigError Operator :=
  match r.object name with
  | .ok (.operator o) => .ok o
  | .ok o => .error (wrongObject name ObjectKind.operator.describe o)
  | .error e => .error e

def factory (r : Registry β) (family : Family) (name : String) : Except ConfigError Factory :=
  match r.object name with
  | .ok (.factory f) =>
    if f.family = family then .ok f
    else .error (wrongObject name (ObjectKind.factory family).describe (.factory f))
  | .ok o => .error (wrongObject name (ObjectKind.factory family).describe o)
  | .error e => .error e

def get (r : Registry β) (kind : ObjectKind) (name : String) : Except ConfigError Object :=
  match kind with
  | .operator => (r.operator name).map .operator
  | .factory family => (r.factory family name).map .factory

def getAs (r : Registry β) (type : ObjectType) (name : String) : Except ConfigError Object :=
  match r.object name with
  | .ok o => if o.type = type then .ok o else .error (wrongObject name type.path o)
  | .error e => .error e

def outline (r : Registry β) : Outline :=
  .record "Registry"
    [("objects", .map (r.objects.map fun (name, o) => (name, o.outline))),
      ("builders", .list (r.builders.map fun (name, _) => .text name))]

end Registry

end SolverConfig
