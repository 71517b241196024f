import SolverConfig.Factory.Basic

/-!
# Identity of factories

Whether two mentions of a factory are of the same object is decided by comparing them.
-/

namespace SolverConfig

mutual

def Factory.is : Factory → Factory → Bool
  | .mk id e s params, .mk id' e' s' params' =>
    id == id' && e == e' && s == s' && Factory.areParams params params'
termination_by structural f => f

def Factory.isParam : Param Factory → Param Factory → Bool
  | .absent, .absent => true
  | .value t v, .value u w => if h : u = t then v == h ▸ w else false
  | .factory f, .factory g => f.is g
  | .factories fs, .factories gs => Factory.areAll fs gs
  | .operator o, .operator o' => o == o'
  | _, _ => false
termination_by structural p => p

def Factory.areAll : List Factory → List Factory → Bool
  | [], [] => true
  | f :: rest, g :: rest' => f.is g && Factory.areAll rest rest'
  | _, _ => false
termination_by structural fs => fs

def Factory.areParams : List (String × Param Factory) → Params Factory → Bool
  | [], [] => true
  | (name, p) :: rest, (name', q) :: rest' =>
    name == name' && Factory.isParam p q && Factory.areParams rest rest'
  | _, _ => false
termination_by structural params => params

end

namespace Factory

mutual

theorem is_iff (f g : Factory) : f.is g = true ↔ f = g := by
  match f, g with
  | .mk id e s params, .mk id' e' s' params' =>
    simp [is, areParams_iff params params', and_assoc]
termination_by structural f

theorem isParam_iff (p q : Param Factory) : isParam p q = true ↔ p = q := by
  cases p with
  | factory f =>
    cases q with
    | factory g => simp [isParam, is_iff f g]
    | _ => simp [isParam]
  | factories fs =>
    cases q with
    | factories gs => simp [isParam, areAll_iff fs gs]
    | _ => simp [isParam]
  | value t v =>
    cases q with
    | value u w =>
      by_cases h : u = t
      · subst h
        simp [isParam]
      · simp [isParam, h, Ne.symm h]
    | _ => simp [isParam]
  | absent | operator _ => cases q <;> simp [isParam]
termination_by structural p

theorem areAll_iff (fs gs : List Factory) : areAll fs gs = true ↔ fs = gs := by
  match fs, gs with
  | [], [] | [], _ :: _ | _ :: _, [] => simp [areAll]
  | f :: rest, g :: rest' => simp [areAll, is_iff f g, areAll_iff rest rest']
termination_by structural fs

theorem areParams_iff (params : List (String × Param Factory)) (params' : Params Factory) :
    areParams params params' = true ↔ params = params' := by
  match params, params' with
  | [], [] | [], _ :: _ | _ :: _, [] => simp [areParams]
  | (name, p) :: rest, (name', q) :: rest' =>
    simp [areParams, isParam_iff p q, areParams_iff rest rest', and_assoc]
termination_by structural params

end

instance : DecidableEq Factory := fun f g => decidable_of_iff _ (is_iff f g)

end Factory

end SolverConfig
