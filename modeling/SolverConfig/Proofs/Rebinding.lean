import SolverConfig.Proofs.Basic
import SolverConfig.Proofs.Binding

/-!
# What binding leaves as it is

Binding makes factories of builders and changes nothing else: signatures, plain values, operators,
and the number and the order of the components in a list are those of the builder at every depth. As
all components in a factory are bound, binding its parameters once more gives them back, and no
identity is taken for it.
-/

namespace SolverConfig

-- ---------------------------------------------------------------------------
-- Parameters with replaced components
-- ---------------------------------------------------------------------------

inductive Param.Becomes {δ ε : Type} (R : δ → ε → Prop) : Param δ → Param ε → Prop
  | absent : Becomes R .absent .absent
  | value {t : Target} {v : t.Carrier} : Becomes R (.value t v) (.value t v)
  | factory {d : δ} {d' : ε} (component : R d d') : Becomes R (.factory d) (.factory d')
  | factories {ds : List δ} {ds' : List ε} (each : List.Forall₂ R ds ds') :
      Becomes R (.factories ds) (.factories ds')
  | operator {o : Operator} : Becomes R (.operator o) (.operator o)

/-- What a component is bound to. A factory stays the object it is; a builder becomes a factory of
its signature on the executor, with its parameters, in which the components are bound. -/
inductive Deferred.BoundAs (e : Executor) : Deferred → Factory → Prop
  | kept {f : Factory} : BoundAs e (.bound f) f
  | made {id : Nat} {s : Signature} {params : Params Deferred} {params' : Params Factory}
      (each : List.Forall₂ (Keyed (Param.Becomes (BoundAs e))) params params') :
      BoundAs e (.unbound s params) (.mk id e s params')

section
variable {e : Executor} {R : Deferred → Factory → Prop}

theorem forall₂_bindAll {ds : List Deferred} (n : Nat) (h : ∀ d ∈ ds, ∀ n, R d (d.bind e n).1) :
    List.Forall₂ R ds (Deferred.bindAll e ds n).1 := by
  induction ds generalizing n with
  | nil => exact .nil
  | cons d rest ih =>
    rw [List.forall_mem_cons] at h
    exact .cons (h.1 n) (ih _ h.2)

theorem becomes_bind {p : Param Deferred} (n : Nat)
    (h : ∀ d ∈ p.components, ∀ n, R d (d.bind e n).1) : p.Becomes R (p.bind e n).1 := by
  cases p with
  | absent => exact .absent
  | value t v => exact .value
  | factory d => exact .factory (h d (List.mem_singleton_self d) n)
  | factories ds => exact .factories (forall₂_bindAll n h)
  | operator o => exact .operator

theorem becomes_bindAll {params : Params Deferred} (n : Nat)
    (h : ∀ entry ∈ params, ∀ d ∈ entry.2.components, ∀ n, R d (d.bind e n).1) :
    List.Forall₂ (Keyed (Param.Becomes R)) params (Param.bindAll e params n).1 := by
  induction params generalizing n with
  | nil => exact .nil
  | cons entry rest ih =>
    obtain ⟨name, p⟩ := entry
    rw [List.forall_mem_cons] at h
    exact .cons (.intro (becomes_bind n h.1)) (ih _ h.2)

theorem boundAs_bind (e : Executor) (d : Deferred) (n : Nat) : d.BoundAs e (d.bind e n).1 := by
  induction d using Deferred.induction generalizing n with
  | bound f => exact .kept
  | unbound s params ih => exact .made (becomes_bindAll n ih)

end

-- ---------------------------------------------------------------------------
-- Places after binding
-- ---------------------------------------------------------------------------

section
variable {δ ε : Type} {R : δ → ε → Prop}

theorem Param.Becomes.components {p : Param δ} {q : Param ε} (h : p.Becomes R q) :
    List.Forall₂ R p.components q.components := by
  cases h with
  | factory h => exact .cons h .nil
  | factories h => exact h
  | _ => exact .nil

theorem component?_becomes {params : Params δ} {params' : Params ε}
    (h : List.Forall₂ (Keyed (Param.Becomes R)) params params') (place : String × Nat) :
    Option.Rel R (params.component? place) (params'.component? place) := by
  have hentry := Keyed.lookup h place.1
  unfold Params.component?
  generalize params.lookup place.1 = p, params'.lookup place.1 = q at hentry
  cases hentry with
  | none => exact .none
  | some h => exact optionRel_getElem? h.components place.2

end

theorem Deferred.BoundAs.signature_at? {e : Executor} {d : Deferred} {f : Factory}
    (h : d.BoundAs e f) (path : List (String × Nat)) :
    ((bound f).at? path).map signature = (d.at? path).map signature := by
  induction path generalizing d f with
  | nil => cases h <;> rfl
  | cons place path ih =>
    cases h with
    | kept => rfl
    | @made id s params params' each =>
      have hplace := component?_becomes each place
      rw [at?, at?, nested?_bound, nested?]
      change ((params'.component? place).map bound |>.bind _).map _ =
        ((params.component? place).bind _).map _
      generalize params.component? place = x, params'.component? place = y at hplace
      cases hplace with
      | none => rfl
      | some h => exact ih h

-- ---------------------------------------------------------------------------
-- Binding once more
-- ---------------------------------------------------------------------------

section
variable {e : Executor} {n : Nat}

theorem bindAll_map_bound {fs : List Factory} :
    Deferred.bindAll e (fs.map .bound) n = (fs, n) := by
  induction fs with
  | nil => rfl
  | cons f rest ih =>
    rw [List.map_cons, bindAll_cons]
    simp [Deferred.bind, ih]

theorem Param.bind_map_bound {p : Param Factory} : (p.map .bound).bind e n = (p, n) := by
  cases p with
  | factories fs => simp [Param.map, Param.bind, bindAll_map_bound]
  | _ => rfl

theorem bindAll_params_map_bound {params : Params Factory} :
    Param.bindAll e (params.mapComponents .bound) n = (params, n) := by
  induction params with
  | nil => rfl
  | cons entry rest ih =>
    obtain ⟨name, p⟩ := entry
    change Param.bindAll e ((name, p.map .bound) :: Params.mapComponents .bound rest) n = _
    rw [bindAll_params_cons, Param.bind_map_bound, ih]

end

/-- A component and what it is bound to have one form at every depth, and at every place one
signature. The parameters of a factory are given back when they are bound to another executor, and
no object is made for that. -/
theorem bind_keeps {e : Executor} {d : Deferred} {supply rest : Nat} {made : Factory}
    (h : d.bind e supply = (made, rest)) :
    d.BoundAs e made ∧ made.family = d.family ∧ made.signature = d.signature ∧
      (∀ path, ((Deferred.bound made).at? path).map Deferred.signature =
        (d.at? path).map Deferred.signature) ∧
      ∀ (e' : Executor) (f : Factory) n,
        Param.bindAll e' (Deferred.bound f).params n = (f.params, n) := by
  obtain rfl : (d.bind e supply).1 = made := congrArg Prod.fst h
  have hbound := boundAs_bind e d supply
  have hsignature : (d.bind e supply).1.signature = d.signature :=
    Option.some.inj (hbound.signature_at? [])
  exact ⟨hbound, congrArg Signature.family hsignature, hsignature, hbound.signature_at?,
    fun _ _ _ => bindAll_params_map_bound⟩

theorem bind_keeps_preconditioned_cg :
    let time : Factory := .mk 3 (.reference 0) ⟨.time, none, none⟩ []
    let iteration : Deferred :=
      .unbound ⟨.iteration, none, none⟩ (Component.iteration.initialParams ⟨.float64, .int32⟩)
    let bicg : Deferred :=
      .unbound ⟨.bicg, some .float64, none⟩ [("criteria", .factories [iteration])]
    let cg : Deferred := .unbound ⟨.cg, some .float64, none⟩
      [("criteria", .factories [iteration, .bound time]), ("preconditioner", .factory bicg)]
    ∃ made inner rest, cg.bind (.reference 1) 7 = (made, rest) ∧
      cg.BoundAs (.reference 1) made ∧ made.signature = cg.signature ∧
      (Deferred.bound made).at? [("preconditioner", 0)] = some (.bound inner) ∧
      Param.bindAll (.reference 2) (Deferred.bound made).params rest = (made.params, rest) ∧
      Param.bindAll (.reference 2) (Deferred.bound inner).params rest = (inner.params, rest) := by
  intro time iteration bicg cg
  obtain ⟨hbound, -, hsignature, -, hrebound⟩ :=
    bind_keeps (rfl : cg.bind (.reference 1) 7 = (_, _))
  exact ⟨_, _, _, rfl, hbound, hsignature, rfl, hrebound _ _ _, hrebound _ _ _⟩

end SolverConfig
