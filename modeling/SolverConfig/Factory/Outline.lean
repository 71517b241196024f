import SolverConfig.Factory.Basic

/-!
# Outlines of factories

Structural texts of parameters, builders and factories. Parameters stand in the order in which
they are declared, with a marker of the type arguments after them.
-/

namespace SolverConfig

namespace Signature

def marker (s : Signature) : Outline :=
  match s.typePaths with
  | [] => .atom "PhantomData<fn()>"
  | [path] => .atom ("PhantomData<fn() -> (" ++ path ++ ",)>")
  | paths => .atom ("PhantomData<fn() -> (" ++ Outline.commaSeparated paths ++ ")>")

def paramsOutline (s : Signature) (params : List (String × Option Outline)) : Outline :=
  let entry (p : Parameter) : String × Outline :=
    let o := (params.lookup p.name).join
    (p.name, if p.type.isOptional then .optional o else o.getD (.atom "None"))
  .record (s.component.label ++ "Parameters")
    (s.component.parameters.map entry ++ [("_types", s.marker)])

end Signature

def Outline.bound (o : Outline) : Outline := .tuple "Bound" [o]

mutual

def Factory.outline : Factory → Outline
  | .mk _ executor s params =>
    .record (s.component.label ++ "Factory")
      [("executor", .text executor.name),
        ("parameters", s.paramsOutline (Factory.outlineParams params))]
termination_by structural f => f

def Factory.outlineParam? : Param Factory → Option Outline
  | .absent => none
  | .value t v => some (t.outline v)
  | .factory f => some f.outline.bound
  | .factories fs => some (.list (Factory.outlineAll fs))
  | .operator o => some o.outline
termination_by structural p => p

def Factory.outlineAll : List Factory → List Outline
  | [] => []
  | f :: rest => f.outline.bound :: Factory.outlineAll rest
termination_by structural fs => fs

def Factory.outlineParams : List (String × Param Factory) → List (String × Option Outline)
  | [] => []
  | (name, p) :: rest => (name, Factory.outlineParam? p) :: Factory.outlineParams rest
termination_by structural params => params

end

mutual

def Deferred.outline : Deferred → Outline
  | .unbound s params => s.paramsOutline (Deferred.outlineParams params)
  | .bound f => f.outline.bound
termination_by structural d => d

def Deferred.outlineParam? : Param Deferred → Option Outline
  | .absent => none
  | .value t v => some (t.outline v)
  | .factory d => some d.outline
  | .factories ds => some (.list (Deferred.outlineAll ds))
  | .operator o => some o.outline
termination_by structural p => p

def Deferred.outlineAll : List Deferred → List Outline
  | [] => []
  | d :: rest => d.outline :: Deferred.outlineAll rest
termination_by structural ds => ds

def Deferred.outlineParams : List (String × Param Deferred) → List (String × Option Outline)
  | [] => []
  | (name, p) :: rest => (name, Deferred.outlineParam? p) :: Deferred.outlineParams rest
termination_by structural params => params

end

def Deferred.familyOutline (d : Deferred) : Outline := .tuple d.family.name [d.outline]

def Factory.familyOutline (f : Factory) : Outline := .tuple f.family.name [f.outline]

end SolverConfig
