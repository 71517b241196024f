import SolverConfig.Component
import SolverConfig.Operator

/-!
# Parameters

The parameters of the components, with the type and the initial value of each.
-/

namespace SolverConfig

/-- What a converted parameter holds: a fixed target, or one that the instantiation of the
component determines. -/
inductive Quantity where
  | fixed (t : Target)
  | real
  | scalar
  | indices
  deriving DecidableEq

@[reducible] def Quantity.target : Quantity → Instantiation → Target
  | .fixed t, _ => t
  | .real, i => .number (.real i.value.precision)
  | .scalar, i => i.value.target
  | .indices, i => .list (.number (.integer i.index.integerType))

/-- A converted parameter without an initial value, a single factory and an operator may be absent;
the others always have a value. -/
inductive ParameterType where
  | leaf (q : Quantity) (initial : (i : Instantiation) → (q.target i).Carrier)
  | optionalLeaf (q : Quantity)
  | factory (f : Family)
  | factories (f : Family)
  | operator

def ParameterType.isOptional : ParameterType → Bool
  | .leaf .. | .factories _ => false
  | .optionalLeaf _ | .factory _ | .operator => true

structure Parameter where
  name : String
  type : ParameterType

namespace Parameter

def flag (name : String) : Parameter := ⟨name, .leaf (.fixed .flag) fun _ => false⟩

def natural (name : String) (t : IntegerType) (initial : Nat) : Parameter :=
  ⟨name, .leaf (.fixed (.number (.integer t))) fun _ => (initial : Int)⟩

def rounded (name : String) (initial : Double) : Parameter :=
  ⟨name, .leaf .real fun i => i.value.precision.ofDouble initial⟩

def factory (name : String) : Parameter := ⟨name, .factory .linOp⟩

def criteria : Parameter := ⟨"criteria", .factories .criterion⟩

def initialGuess : Parameter :=
  ⟨"default_initial_guess", .leaf (.fixed .guess) fun _ => InitialGuess.rhs⟩

end Parameter

namespace Component

open Parameter

def krylovParameters (own : List Parameter) : List Parameter :=
  [criteria, initialGuess] ++ own ++
    [factory "preconditioner", ⟨"generated_preconditioner", .operator⟩]

/-- The parameters of a component as they are declared: those that may be absent last. -/
def parameters : Component → List Parameter
  | .cg | .bicg | .bicgstab | .cgs | .fcg => krylovParameters []
  | .gmres => krylovParameters [natural "krylov_dim" .natSize 100, flag "flexible"]
  | .idr =>
    krylovParameters
      [natural "subspace_dim" .natSize 2,
        rounded "kappa" (.ofRatio false 7 10),
        flag "deterministic",
        flag "complex_subspace"]
  | .ir =>
    [criteria,
      ⟨"relaxation_factor", .leaf .scalar fun i => i.value.one⟩,
      initialGuess,
      factory "solver",
      ⟨"generated_solver", .operator⟩]
  | .lowerTrs | .upperTrs =>
    [natural "num_rhs" .natSize 1,
      flag "unit_diagonal",
      ⟨"algorithm", .leaf (.fixed .algorithm) fun _ => TriangularAlgorithm.sparselib⟩]
  | .jacobi =>
    [natural "max_block_size" .nat32 32,
      natural "max_block_stride" .nat32 0,
      flag "skip_sorting",
      rounded "accuracy" (.ofRatio false 1 10),
      ⟨"block_pointers", .optionalLeaf .indices⟩]
  | .ilu =>
    [flag "reverse_apply",
      factory "l_solver",
      factory "u_solver",
      factory "factorization"]
  | .iteration => [natural "max_iters" .natSize 0]
  | .residualNorm | .implicitResidualNorm =>
    [⟨"reduction_factor", .leaf .real fun _ => (Binary.ofNat 5).mul .epsilon⟩,
      ⟨"baseline", .leaf (.fixed .baseline) fun _ => Baseline.rhsNorm⟩]
  | .time => [⟨"time_limit", .leaf (.fixed .duration) fun _ => 10000000000⟩]
  | .combined => [criteria]

def parameter? (c : Component) (name : String) : Option Parameter :=
  c.parameters.find? fun p => p.name == name

end Component

end SolverConfig
