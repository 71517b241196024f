import SolverConfig.Types

/-!
# Components

The built-in solvers, preconditioners and stopping criteria, the families they belong to, and what
a caller may ask for.
-/

namespace SolverConfig

inductive Family where
  | linOp
  | criterion
  deriving DecidableEq

namespace Family

def name : Family → String
  | .linOp => "LinOpFactory"
  | .criterion => "CriterionFactory"

instance : Vocabulary Family where
  all := [.linOp, .criterion]
  name := name
  label := name

end Family

inductive Generics where
  | none
  | value
  | valueIndex
  deriving DecidableEq

def Generics.label : Generics → String
  | .none => "None"
  | .value => "Value"
  | .valueIndex => "ValueIndex"

inductive Component where
  | cg
  | bicg
  | bicgstab
  | cgs
  | fcg
  | gmres
  | idr
  | ir
  | lowerTrs
  | upperTrs
  | jacobi
  | ilu
  | iteration
  | residualNorm
  | implicitResidualNorm
  | time
  | combined
  deriving DecidableEq

namespace Component

def label : Component → String
  | .cg => "Cg"
  | .bicg => "Bicg"
  | .bicgstab => "Bicgstab"
  | .cgs => "Cgs"
  | .fcg => "Fcg"
  | .gmres => "Gmres"
  | .idr => "Idr"
  | .ir => "Ir"
  | .lowerTrs => "LowerTrs"
  | .upperTrs => "UpperTrs"
  | .jacobi => "Jacobi"
  | .ilu => "Ilu"
  | .iteration => "Iteration"
  | .residualNorm => "ResidualNorm"
  | .implicitResidualNorm => "ImplicitResidualNorm"
  | .time => "Time"
  | .combined => "Combined"

def family : Component → Family
  | .iteration | .residualNorm | .implicitResidualNorm | .time | .combined => .criterion
  | _ => .linOp

def name : Component → String
  | .cg => "solver::Cg"
  | .bicg => "solver::Bicg"
  | .bicgstab => "solver::Bicgstab"
  | .cgs => "solver::Cgs"
  | .fcg => "solver::Fcg"
  | .gmres => "solver::Gmres"
  | .idr => "solver::Idr"
  | .ir => "solver::Ir"
  | .lowerTrs => "solver::LowerTrs"
  | .upperTrs => "solver::UpperTrs"
  | .jacobi => "preconditioner::Jacobi"
  | .ilu => "preconditioner::Ilu"
  | .iteration => "Iteration"
  | .residualNorm => "ResidualNorm"
  | .implicitResidualNorm => "ImplicitResidualNorm"
  | .time => "Time"
  | .combined => "Combined"

def alias? : Component → Option String
  | .iteration => some "stop::Iteration"
  | .residualNorm => some "stop::ResidualNorm"
  | .implicitResidualNorm => some "stop::ImplicitResidualNorm"
  | .time => some "stop::Time"
  | .combined => some "stop::Combined"
  | _ => none

instance : Vocabulary Component where
  all := [.cg, .bicg, .bicgstab, .cgs, .fcg, .gmres, .idr, .ir, .lowerTrs, .upperTrs, .jacobi,
    .ilu, .iteration, .residualNorm, .implicitResidualNorm, .time, .combined]
  name := name
  alias? := alias?
  label := label

def generics : Component → Generics
  | .iteration | .time | .combined => .none
  | .lowerTrs | .upperTrs | .jacobi | .ilu => .valueIndex
  | _ => .value

end Component

/-- The type of a parameter set: a component with the types it is instantiated with, those alone
that it is generic over. -/
structure Signature where
  component : Component
  value : Option ValueType
  index : Option IndexType
  deriving DecidableEq

/-- What a parameter set says of itself: the name of its type, and what that is instantiated
with. -/
structure Info where
  typeName : String
  value : Option ValueType
  index : Option IndexType
  deriving DecidableEq

def Info.text : Info → String
  | ⟨name, some v, some i⟩ => name ++ "<" ++ v.name ++ ", " ++ i.name ++ ">"
  | ⟨name, some v, none⟩ => name ++ "<" ++ v.name ++ ">"
  | ⟨name, none, some i⟩ => name ++ "<" ++ i.name ++ ">"
  | ⟨name, none, none⟩ => name

namespace Signature

def family (s : Signature) : Family :=
  match s.component with
  | .cg | .bicg | .bicgstab | .cgs | .fcg | .gmres | .idr | .ir => .linOp
  | .lowerTrs | .upperTrs => .linOp
  | .jacobi | .ilu => .linOp
  | .iteration | .residualNorm | .implicitResidualNorm | .time | .combined => .criterion

def info (s : Signature) : Info :=
  match s.component with
  | .cg => ⟨"solver::Cg", s.value, none⟩
  | .bicg => ⟨"solver::Bicg", s.value, none⟩
  | .bicgstab => ⟨"solver::Bicgstab", s.value, none⟩
  | .cgs => ⟨"solver::Cgs", s.value, none⟩
  | .fcg => ⟨"solver::Fcg", s.value, none⟩
  | .gmres => ⟨"solver::Gmres", s.value, none⟩
  | .idr => ⟨"solver::Idr", s.value, none⟩
  | .ir => ⟨"solver::Ir", s.value, none⟩
  | .lowerTrs => ⟨"solver::LowerTrs", s.value, s.index⟩
  | .upperTrs => ⟨"solver::UpperTrs", s.value, s.index⟩
  | .jacobi => ⟨"preconditioner::Jacobi", s.value, s.index⟩
  | .ilu => ⟨"preconditioner::Ilu", s.value, s.index⟩
  | .iteration => ⟨"Iteration", none, none⟩
  | .residualNorm => ⟨"ResidualNorm", s.value, none⟩
  | .implicitResidualNorm => ⟨"ImplicitResidualNorm", s.value, none⟩
  | .time => ⟨"Time", none, none⟩
  | .combined => ⟨"Combined", none, none⟩

def typePaths (s : Signature) : List String :=
  (s.value.map ValueType.path).toList ++ (s.index.map IndexType.path).toList

end Signature

/-- What a caller asks for: any member of a family, or one component. -/
inductive Kind where
  | family (f : Family)
  | component (c : Component)
  deriving DecidableEq

namespace Kind

def name : Kind → String
  | .family f => f.name
  | .component c => c.name

def toFamily : Kind → Family
  | .family f => f
  | .component c => c.family

def find? (s : String) : Option Kind :=
  match Vocabulary.find? Family s with
  | some f => some (.family f)
  | none => (Vocabulary.find? Component s).map .component

def outline : Kind → Outline
  | .family f => .tuple "Family" [.atom (Vocabulary.label f)]
  | .component c => .tuple "Builtin" [.atom (Vocabulary.label c)]

end Kind

end SolverConfig
