import SolverConfig.Shape

/-!
# Fields

What a node of a component may hold under which keys, and which fields are read in which order.
-/

namespace SolverConfig

structure Field where
  name : String
  shape : Shape
  required : Bool

namespace Field

def optional (name : String) (shape : Shape) : Field := ⟨name, shape, false⟩

def criteria : Field := ⟨"criteria", .objects .criterion, true⟩

def initialGuess : Field := optional "default_initial_guess" .scalar

end Field

namespace Component

open SolverConfig.Field

def krylovFields : List Field :=
  [criteria,
    optional "preconditioner" (.object .linOp),
    optional "generated_preconditioner" .reference,
    initialGuess]

/-- The fields of a component in the order in which they are checked. -/
def fields : Component → List Field
  | .cg | .bicg | .bicgstab | .cgs | .fcg => krylovFields
  | .gmres => krylovFields ++ [optional "krylov_dim" .scalar, optional "flexible" .scalar]
  | .idr =>
    krylovFields ++
      [optional "subspace_dim" .scalar,
        optional "kappa" .scalar,
        optional "deterministic" .scalar,
        optional "complex_subspace" .scalar]
  | .ir =>
    [criteria,
      optional "solver" (.object .linOp),
      optional "generated_solver" .reference,
      optional "relaxation_factor" .value,
      initialGuess]
  | .lowerTrs | .upperTrs =>
    [optional "num_rhs" .scalar,
      optional "unit_diagonal" .scalar,
      optional "algorithm" .scalar]
  | .jacobi =>
    [optional "max_block_size" .scalar,
      optional "max_block_stride" .scalar,
      optional "skip_sorting" .scalar,
      optional "block_pointers" .array,
      optional "accuracy" .scalar]
  | .ilu =>
    [optional "l_solver" (.object .linOp),
      optional "u_solver" (.object .linOp),
      optional "factorization" (.object .linOp),
      optional "reverse_apply" .scalar]
  | .iteration => [⟨"max_iters", .scalar, true⟩]
  | .residualNorm | .implicitResidualNorm =>
    [optional "reduction_factor" .scalar,
      optional "baseline" .scalar]
  | .time => [optional "time_limit" .scalar]
  | .combined => [criteria]

def field? (c : Component) (name : String) : Option Field :=
  c.fields.find? fun f => f.name == name

def krylovReads : List String :=
  ["criteria", "preconditioner", "generated_preconditioner", "default_initial_guess"]

def reads : Component → List String
  | .cg | .bicg | .bicgstab | .cgs | .fcg => krylovReads
  | .gmres => krylovReads ++ ["krylov_dim", "flexible"]
  | .idr => krylovReads ++ ["subspace_dim", "kappa", "deterministic", "complex_subspace"]
  | .ir =>
    ["criteria", "solver", "generated_solver", "relaxation_factor", "default_initial_guess"]
  | .lowerTrs | .upperTrs => ["num_rhs", "unit_diagonal", "algorithm"]
  | .jacobi =>
    ["max_block_size", "max_block_stride", "skip_sorting", "block_pointers", "accuracy"]
  | .ilu => ["l_solver", "u_solver", "factorization", "reverse_apply"]
  | .iteration => ["max_iters"]
  | .residualNorm | .implicitResidualNorm => ["reduction_factor", "baseline"]
  | .time => ["time_limit"]
  | .combined => ["criteria"]

end Component

end SolverConfig
