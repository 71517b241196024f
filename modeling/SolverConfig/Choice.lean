import SolverConfig.Vocabulary

/-!
# Choices

The parameters that take one of a few named values.
-/

namespace SolverConfig

inductive InitialGuess where
  | rhs
  | zero
  | provided
  deriving DecidableEq

instance : Vocabulary InitialGuess where
  all := [.rhs, .zero, .provided]
  name
    | .rhs => "rhs"
    | .zero => "zero"
    | .provided => "provided"
  label
    | .rhs => "Rhs"
    | .zero => "Zero"
    | .provided => "Provided"

inductive TriangularAlgorithm where
  | sparselib
  | syncfree
  deriving DecidableEq

instance : Vocabulary TriangularAlgorithm where
  all := [.sparselib, .syncfree]
  name
    | .sparselib => "sparselib"
    | .syncfree => "syncfree"
  label
    | .sparselib => "Sparselib"
    | .syncfree => "Syncfree"

/-- What a residual norm is compared against. -/
inductive Baseline where
  | rhsNorm
  | initialResnorm
  | absolute
  deriving DecidableEq

instance : Vocabulary Baseline where
  all := [.rhsNorm, .initialResnorm, .absolute]
  name
    | .rhsNorm => "rhs_norm"
    | .initialResnorm => "initial_resnorm"
    | .absolute => "absolute"
  label
    | .rhsNorm => "RhsNorm"
    | .initialResnorm => "InitialResnorm"
    | .absolute => "Absolute"

end SolverConfig
