import SolverConfig.Factory.Basic

/-!
# Binding

Binding a builder to an executor makes a factory of it and of every builder below it. Each new
factory takes the next identity of a supply; factories bound before stay the objects they are.
-/

namespace SolverConfig

mutual

def Param.bind (e : Executor) : Param Deferred → Nat → Param Factory × Nat
  | .factory d, supply =>
    let (f, supply) := d.bind e supply
    (.factory f, supply)
  | .factories ds, supply =>
    let (fs, supply) := Deferred.bindAll e ds supply
    (.factories fs, supply)
  | .absent, supply => (.absent, supply)
  | .value t v, supply => (.value t v, supply)
  | .operator o, supply => (.operator o, supply)
termination_by structural p => p

/-- The factory of a deferred component, and the rest of the supply of identities. -/
def Deferred.bind (e : Executor) : Deferred → Nat → Factory × Nat
  | .unbound s params, supply =>
    let (params, supply) := Param.bindAll e params supply
    (.mk supply e s params, supply + 1)
  | .bound f, supply => (f, supply)
termination_by structural d => d

def Deferred.bindAll (e : Executor) : List Deferred → Nat → List Factory × Nat
  | [], supply => ([], supply)
  | d :: rest, supply =>
    let (f, supply) := d.bind e supply
    let (rest, supply) := Deferred.bindAll e rest supply
    (f :: rest, supply)
termination_by structural ds => ds

def Param.bindAll (e : Executor) : List (String × Param Deferred) → Nat → Params Factory × Nat
  | [], supply => ([], supply)
  | (name, p) :: rest, supply =>
    let (p, supply) := p.bind e supply
    let (rest, supply) := Param.bindAll e rest supply
    ((name, p) :: rest, supply)
termination_by structural params => params

end

end SolverConfig
