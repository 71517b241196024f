import SolverConfig.Outline
import SolverConfig.Vocabulary

/-!
# Value and index types

Generic components are instantiated with a value type and an index type.
-/

namespace SolverConfig

inductive ValueType where
  | float32
  | float64
  | complex32
  | complex64
  deriving DecidableEq

namespace ValueType

def name : ValueType → String
  | .float32 => "float32"
  | .float64 => "float64"
  | .complex32 => "complex<float32>"
  | .complex64 => "complex<float64>"

instance : Vocabulary ValueType where
  all := [.float32, .float64, .complex32, .complex64]
  name := name
  alias?
    | .float32 => some "float"
    | .float64 => some "double"
    | .complex32 => some "complex<float>"
    | .complex64 => some "complex<double>"
  label
    | .float32 => "Float32"
    | .float64 => "Float64"
    | .complex32 => "Complex32"
    | .complex64 => "Complex64"

def path : ValueType → String
  | .float32 => "f32"
  | .float64 => "f64"
  | .complex32 => "num_complex::Complex<f32>"
  | .complex64 => "num_complex::Complex<f64>"

end ValueType

inductive IndexType where
  | void
  | int32
  | int64
  deriving DecidableEq

namespace IndexType

def name : IndexType → String
  | .void => "void"
  | .int32 => "int32"
  | .int64 => "int64"

instance : Vocabulary IndexType where
  all := [.void, .int32, .int64]
  name := name
  alias?
    | .void => none
    | .int32 => some "int"
    | .int64 => some "long"
  label
    | .void => "Void"
    | .int32 => "Int32"
    | .int64 => "Int64"

def path : IndexType → String
  | .void => "()"
  | .int32 => "i32"
  | .int64 => "i64"

end IndexType

/-- The types that a node passes to the nodes below it. -/
structure Instantiation where
  value : ValueType := .float64
  index : IndexType := .int32
  deriving DecidableEq

namespace Instantiation

def text (i : Instantiation) : String := "(" ++ i.value.name ++ ", " ++ i.index.name ++ ")"

def outline (i : Instantiation) : Outline :=
  .record "TypeDescriptor"
    [("value_type", .atom (Vocabulary.label i.value)),
      ("index_type", .atom (Vocabulary.label i.index))]

def all : List Instantiation :=
  (Vocabulary.all : List ValueType).flatMap fun v =>
    (Vocabulary.all : List IndexType).map fun i => ⟨v, i⟩

end Instantiation

end SolverConfig
