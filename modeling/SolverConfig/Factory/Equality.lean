import SolverConfig.Factory.Identity

/-!
# Equality of builders

Unbound builders are equal if they have the same signature and equal parameters; factories only if
they are the same object.
-/

namespace SolverConfig

def Target.sameAcross (t : Target) (x : t.Carrier) (u : Target) (y : u.Carrier) : Bool :=
  if h : u = t then t.same x (h ▸ y) else false

theorem Target.sameAcross_self (t : Target) (x y : t.Carrier) :
    t.sameAcross x t y = t.same x y := by
  simp [Target.sameAcross]

mutual

def Param.same : Param Deferred → Param Deferred → Bool
  | .absent, .absent => true
  | .value t x, .value u y => t.sameAcross x u y
  | .factory d, .factory d' => d.same d'
  | .factories ds, .factories ds' => Deferred.sameAll ds ds'
  | .operator o, .operator o' => o == o'
  | _, _ => false
termination_by structural p => p

def Deferred.same : Deferred → Deferred → Bool
  | .unbound s params, .unbound s' params' => s == s' && Param.sameAll params params'
  | .bound f, .bound f' => f == f'
  | _, _ => false
termination_by structural d => d

def Deferred.sameAll : List Deferred → List Deferred → Bool
  | [], [] => true
  | d :: rest, d' :: rest' => d.same d' && Deferred.sameAll rest rest'
  | _, _ => false
termination_by structural ds => ds

def Param.sameAll : List (String × Param Deferred) → Params Deferred → Bool
  | [], [] => true
  | (name, p) :: rest, (name', p') :: rest' =>
    name == name' && p.same p' && Param.sameAll rest rest'
  | _, _ => false
termination_by structural params => params

end

end SolverConfig
