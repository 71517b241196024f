import SolverConfig.Factory.Basic

/-!
# Places below a component

A component nests others in its parameters: one alone, or several in a list. A path of names and
positions leads to each of them.
-/

namespace SolverConfig

section
variable {δ ε : Type}

def Param.components : Param δ → List δ
  | .factory d => [d]
  | .factories ds => ds
  | .absent | .value .. | .operator _ => []

/-- The component at a place: the name of a parameter and a position in it. -/
def Params.component? (params : Params δ) (place : String × Nat) : Option δ :=
  (params.lookup place.1).bind fun p => p.components[place.2]?

theorem Params.component?_of_lookup {params : Params δ} {name : String} {p : Param δ}
    (h : List.lookup name params = some p) (position : Nat) :
    params.component? (name, position) = p.components[position]? := by
  simp [component?, h]

theorem Param.components_map {g : δ → ε} {p : Param δ} :
    (p.map g).components = p.components.map g := by
  cases p <;> rfl

theorem Params.lookup_mapComponents {g : δ → ε} {params : Params δ} {name : String} :
    List.lookup name (params.mapComponents g) = (List.lookup name params).map (Param.map g) := by
  induction params with
  | nil => rfl
  | cons entry rest ih =>
    obtain ⟨key, p⟩ := entry
    simp only [Params.mapComponents, List.map_cons, List.lookup_cons]
    split
    · rfl
    · exact ih

theorem Params.component?_mapComponents {g : δ → ε} {params : Params δ} {place : String × Nat} :
    (params.mapComponents g).component? place = (params.component? place).map g := by
  rw [component?, component?, lookup_mapComponents]
  cases List.lookup place.1 params with
  | none => rfl
  | some p => simp [Param.components_map]

end

namespace Deferred

/-- What holds of every factory, and of a builder if it holds of the components in its parameters,
holds of every component. -/
@[elab_as_elim]
theorem induction {motive : Deferred → Prop} (bound : ∀ f, motive (.bound f))
    (unbound : ∀ s params, (∀ entry ∈ params, ∀ d ∈ entry.2.components, motive d) →
      motive (.unbound s params)) (d : Deferred) : motive d := by
  refine @Deferred.rec motive (fun params => ∀ entry ∈ params, ∀ d ∈ entry.2.components, motive d)
    (fun entry => ∀ d ∈ entry.2.components, motive d) (fun p => ∀ d ∈ p.components, motive d)
    (fun ds => ∀ d ∈ ds, motive d)
    unbound bound (by simp) ?_ (fun _ _ h => h) (by simp [Param.components])
    (by simp [Param.components]) ?_ (fun _ h => h) (by simp [Param.components]) (by simp) ?_ d
  · exact fun entry rest hentry hrest => List.forall_mem_cons.mpr ⟨hentry, hrest⟩
  · exact fun d h => by simpa [Param.components] using h
  · exact fun d rest hd hrest => List.forall_mem_cons.mpr ⟨hd, hrest⟩

def nested? (d : Deferred) (name : String) (position : Nat) : Option Deferred :=
  d.params.component? (name, position)

theorem nested?_bound {f : Factory} {name : String} {position : Nat} :
    (bound f).nested? name position = (f.params.component? (name, position)).map .bound :=
  Params.component?_mapComponents

def at? (d : Deferred) : List (String × Nat) → Option Deferred
  | [] => some d
  | (name, position) :: rest => (d.nested? name position).bind fun nested => nested.at? rest

theorem at?_append {d : Deferred} {path rest : List (String × Nat)} :
    d.at? (path ++ rest) = (d.at? path).bind fun nested => nested.at? rest := by
  induction path generalizing d with
  | nil => rfl
  | cons step path ih =>
    obtain ⟨name, i⟩ := step
    simp only [List.cons_append, at?, Option.bind_assoc]
    congr
    funext nested
    exact ih

theorem at?_concat {d : Deferred} {path : List (String × Nat)} {name : String} {position : Nat} :
    d.at? (path ++ [(name, position)]) =
      (d.at? path).bind fun nested => nested.nested? name position := by
  simp [at?_append, at?]

end Deferred

end SolverConfig
