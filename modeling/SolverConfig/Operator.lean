import SolverConfig.Target

/-!
# Operators

Dense matrices in row-major order, and the operators that hold them on an executor.
-/

namespace SolverConfig

/-- An executor by its identity, which tells it from others of the same name. -/
structure Executor where
  id : Nat
  name : String
  deriving DecidableEq

def Executor.reference (id : Nat) : Executor := ⟨id, "reference"⟩

structure DimensionMismatch where
  rows : UInt64
  cols : UInt64
  length : Nat
  deriving DecidableEq

def sizeText (rows cols : UInt64) : String := toString rows.toNat ++ "x" ++ toString cols.toNat

def DimensionMismatch.message (e : DimensionMismatch) : String :=
  toString e.length ++ " values cannot fill a " ++ sizeText e.rows e.cols ++ " matrix"

/-- A matrix by its size and its values, row after row. Sizes are words of 64 bits, and so is
their product. -/
structure Dense (α : Type) where
  rows : UInt64
  cols : UInt64
  values : List α
  deriving DecidableEq

namespace Dense

variable {α : Type}

def ofValues (rows cols : UInt64) (values : List α) : Except DimensionMismatch (Dense α) :=
  if values.length = (rows * cols).toNat then .ok ⟨rows, cols, values⟩
  else .error ⟨rows, cols, values.length⟩

def constant (rows cols : UInt64) (value : α) : Dense α :=
  ⟨rows, cols, List.replicate (rows * cols).toNat value⟩

def ofRows {n : Nat} (rows : List (Vector α n)) : Dense α :=
  ⟨.ofNat rows.length, .ofNat n, rows.flatMap Vector.toList⟩

def at? (m : Dense α) (row col : UInt64) : Option α :=
  if row < m.rows ∧ col < m.cols then m.values[(row * m.cols + col).toNat]? else none

def sizeText (m : Dense α) : String := SolverConfig.sizeText m.rows m.cols

end Dense

/-- An operator that exists already. It is one object: its identity tells it from others with the
same matrix. -/
structure Operator where
  id : Nat
  executor : Executor
  element : ValueType
  matrix : Dense element.target.Carrier
  deriving DecidableEq

namespace Operator

def outline (o : Operator) : Outline :=
  .record "Dense"
    [("value_type", .atom (Vocabulary.label o.element)),
      ("size", .record "Dim2"
        [("rows", .ofNat o.matrix.rows.toNat), ("cols", .ofNat o.matrix.cols.toNat)]),
      ("executor", .text o.executor.name)]

end Operator

end SolverConfig
