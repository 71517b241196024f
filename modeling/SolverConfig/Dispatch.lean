import SolverConfig.Error

/-!
# The dispatch table

Every component is registered for the pairs of types that it can be instantiated with, each time
with the parameter set that is read for that pair. Components without type arguments are registered
for every pair, those generic over values for every index type, `void` included, and those generic
over both only for integer index types.
-/

namespace SolverConfig

namespace Signature

def free (c : Component) : Signature := ⟨c, none, none⟩

def overValue (c : Component) (v : ValueType) : Signature := ⟨c, some v, none⟩

def overValueIndex (c : Component) (v : ValueType) (i : IndexType) : Signature :=
  ⟨c, some v, some i⟩

end Signature

abbrev DispatchTable := List ((Component × Instantiation) × Signature)

namespace DispatchTable

def typeFree (c : Component) (s : Signature) : DispatchTable :=
  Instantiation.all.map fun types => ((c, types), s)

def valueGeneric (c : Component) (v : ValueType) (s : Signature) : DispatchTable :=
  (Vocabulary.all : List IndexType).map fun i => ((c, ⟨v, i⟩), s)

def valueIndexGeneric (c : Component) (v : ValueType) (i : IndexType) (s : Signature) :
    DispatchTable :=
  [((c, ⟨v, i⟩), s)]

def value (c : Component) (s : ValueType → Signature) : DispatchTable :=
  valueGeneric c .float32 (s .float32) ++
    valueGeneric c .float64 (s .float64) ++
    valueGeneric c .complex32 (s .complex32) ++
    valueGeneric c .complex64 (s .complex64)

def integerIndices (c : Component) (v : ValueType) (s : IndexType → Signature) : DispatchTable :=
  valueIndexGeneric c v .int32 (s .int32) ++ valueIndexGeneric c v .int64 (s .int64)

def valueIndex (c : Component) (s : ValueType → IndexType → Signature) : DispatchTable :=
  integerIndices c .float32 (s .float32) ++
    integerIndices c .float64 (s .float64) ++
    integerIndices c .complex32 (s .complex32) ++
    integerIndices c .complex64 (s .complex64)

def solvers : DispatchTable :=
  value .cg (.overValue .cg) ++
    value .bicg (.overValue .bicg) ++
    value .bicgstab (.overValue .bicgstab) ++
    value .cgs (.overValue .cgs) ++
    value .fcg (.overValue .fcg) ++
    value .gmres (.overValue .gmres) ++
    value .idr (.overValue .idr) ++
    value .ir (.overValue .ir) ++
    valueIndex .lowerTrs (.overValueIndex .lowerTrs) ++
    valueIndex .upperTrs (.overValueIndex .upperTrs)

def preconditioners : DispatchTable :=
  valueIndex .jacobi (.overValueIndex .jacobi) ++
    valueIndex .ilu (.overValueIndex .ilu)

def criteria : DispatchTable :=
  typeFree .iteration (.free .iteration) ++
    typeFree .time (.free .time) ++
    typeFree .combined (.free .combined) ++
    value .residualNorm (.overValue .residualNorm) ++
    value .implicitResidualNorm (.overValue .implicitResidualNorm)

def builtins : DispatchTable := solvers ++ preconditioners ++ criteria

end DispatchTable

namespace Component

/-- The parameter set that a component is registered with for a pair of types. -/
def parameterSet (c : Component) (types : Instantiation) : Except ConfigError Signature :=
  match DispatchTable.builtins.lookup (c, types) with
  | some s => .ok s
  | none => .error (.unsupported c types)

def isSupported (c : Component) (types : Instantiation) : Bool := (c.parameterSet types).isOk

def supported (c : Component) : List Instantiation := Instantiation.all.filter c.isSupported

end Component

end SolverConfig
