import SolverConfig.Factory.Binding
import SolverConfig.Proofs.Places

/-!
# Binding is complete and uniform

Every builder that is reached through builders becomes a factory of its own on the executor, with
all its deferred parameters bound; a factory that was bound before stays the object it is, and
nothing is added or lost. The supply of identities is handed from parameter to parameter, so what is
made at different places takes its identities from disjoint intervals.
-/

namespace SolverConfig

-- ---------------------------------------------------------------------------
-- Bound and reached components
-- ---------------------------------------------------------------------------

def Deferred.isBound : Deferred → Bool
  | .unbound .. => false
  | .bound _ => true

def Param.isBound (p : Param Deferred) : Bool := p.components.all Deferred.isBound

/-- The components that are reached from one through builders alone, with the paths to them. -/
inductive Deferred.Reaches : Deferred → List (String × Nat) → Deferred → Prop
  | here {d : Deferred} : Reaches d [] d
  | nested {s : Signature} {params : Params Deferred} {name : String} {position : Nat}
      {inner d : Deferred} {path : List (String × Nat)}
      (step : (Deferred.unbound s params).nested? name position = some inner)
      (reached : Reaches inner path d) :
      Reaches (.unbound s params) ((name, position) :: path) d

/-- Every factory in a component, at any depth, has one of the identities below a number. -/
def Deferred.Issued (d : Deferred) (supply : Nat) : Prop :=
  ∀ path f, d.at? path = some (.bound f) → f.id < supply

section
variable {e : Executor} {n : Nat}

theorem bindAll_cons {d : Deferred} {ds : List Deferred} :
    Deferred.bindAll e (d :: ds) n =
      ((d.bind e n).1 :: (Deferred.bindAll e ds (d.bind e n).2).1,
        (Deferred.bindAll e ds (d.bind e n).2).2) := rfl

theorem bindAll_params_cons {name : String} {p : Param Deferred} {params : Params Deferred} :
    Param.bindAll e ((name, p) :: params) n =
      ((name, (p.bind e n).1) :: (Param.bindAll e params (p.bind e n).2).1,
        (Param.bindAll e params (p.bind e n).2).2) := rfl

theorem components_bind {p : Param Deferred} :
    (p.bind e n).1.components = (Deferred.bindAll e p.components n).1 ∧
      (p.bind e n).2 = (Deferred.bindAll e p.components n).2 := by
  cases p <;> exact ⟨rfl, rfl⟩

theorem isBound_params {f : Factory} :
    ∀ entry ∈ (Deferred.bound f).params, entry.2.isBound = true := by
  intro entry h
  obtain ⟨⟨name, p⟩, -, rfl⟩ := List.mem_map.mp h
  simp [Param.isBound, Param.components_map, Deferred.isBound]

end

-- ---------------------------------------------------------------------------
-- Shares of the supply
-- ---------------------------------------------------------------------------

mutual

theorem Param.le_bind (e : Executor) (p : Param Deferred) (n : Nat) : n ≤ (p.bind e n).2 := by
  cases p with
  | factory d => exact Deferred.le_bind e d n
  | factories ds => exact Deferred.le_bindAll e ds n
  | absent | value _ _ | operator _ => exact Nat.le_refl n

theorem Deferred.le_bind (e : Executor) (d : Deferred) (n : Nat) : n ≤ (d.bind e n).2 := by
  cases d with
  | unbound s params => exact Nat.le_succ_of_le (Param.le_bindAll e params n)
  | bound f => exact Nat.le_refl n

theorem Deferred.le_bindAll (e : Executor) (ds : List Deferred) (n : Nat) :
    n ≤ (Deferred.bindAll e ds n).2 := by
  match ds with
  | [] => exact Nat.le_refl n
  | d :: rest => exact Nat.le_trans (Deferred.le_bind e d n) (Deferred.le_bindAll e rest _)

theorem Param.le_bindAll (e : Executor) (params : Params Deferred) (n : Nat) :
    n ≤ (Param.bindAll e params n).2 := by
  match params with
  | [] => exact Nat.le_refl n
  | (name, p) :: rest => exact Nat.le_trans (Param.le_bind e p n) (Param.le_bindAll e rest _)

end

/-- Components at places are bound to what stands there after, the one at `i` from the identity
`start i` on, and no two of them share an identity between `n` and `m`. -/
structure Shares {ι : Type} (e : Executor) (before : ι → Option Deferred)
    (after : ι → Option Factory) (n m : Nat) (start : ι → Nat) : Prop where
  bound : ∀ i, after i = (before i).map fun d => (d.bind e (start i)).1
  within : ∀ i d, before i = some d → n ≤ start i ∧ (d.bind e (start i)).2 ≤ m
  apart : ∀ i j d d', i ≠ j → before i = some d → before j = some d' →
    (d.bind e (start i)).2 ≤ start j ∨ (d'.bind e (start j)).2 ≤ start i

section
variable {δ : Type} {key : String} {p : Param δ} {params : Params δ} {place : String × Nat}

theorem component?_cons_self (h : place.1 = key) :
    Params.component? ((key, p) :: params) place = p.components[place.2]? := by
  simp [Params.component?, h]

theorem component?_cons_of_ne (h : place.1 ≠ key) :
    Params.component? ((key, p) :: params) place = params.component? place := by
  simp [Params.component?, List.lookup_cons, beq_false_of_ne h]

end

section
variable (e : Executor)

theorem shares_bindAll (ds : List Deferred) (n : Nat) :
    ∃ start, Shares e (fun i : Nat => ds[i]?) (fun i => (Deferred.bindAll e ds n).1[i]?) n
      (Deferred.bindAll e ds n).2 start := by
  induction ds generalizing n with
  | nil => exact ⟨fun _ => n, fun _ => rfl, nofun, nofun⟩
  | cons d rest ih =>
    obtain ⟨start, h⟩ := ih (d.bind e n).2
    have hd := Deferred.le_bind e d n
    have hrest := Deferred.le_bindAll e rest (d.bind e n).2
    refine ⟨fun i => i.casesOn n start, ?_, ?_, ?_⟩
    · rintro (_ | i)
      · rfl
      · exact h.bound i
    · rintro (_ | i) x hx
      · cases hx
        exact ⟨Nat.le_refl n, hrest⟩
      · exact ⟨Nat.le_trans hd (h.within i x hx).1, (h.within i x hx).2⟩
    · rintro (_ | i) (_ | j) x y hij hx hy
      · exact absurd rfl hij
      · cases hx
        exact .inl (h.within j y hy).1
      · cases hy
        exact .inr (h.within i x hx).1
      · exact h.apart i j x y (fun h => hij (congrArg _ h)) hx hy

theorem shares_bind (p : Param Deferred) (n : Nat) :
    ∃ start, Shares e (fun i : Nat => p.components[i]?) (fun i => (p.bind e n).1.components[i]?) n
      (p.bind e n).2 start := by
  rw [components_bind.1, components_bind.2]
  exact shares_bindAll e p.components n

theorem shares_bindAll_params (params : Params Deferred) (n : Nat) :
    ∃ start, Shares e params.component? (Param.bindAll e params n).1.component? n
      (Param.bindAll e params n).2 start := by
  -- Each parameter takes its identities from where the one before it leaves the supply.
  induction params generalizing n with
  | nil => exact ⟨fun _ => n, fun _ => rfl, nofun, nofun⟩
  | cons entry rest ih =>
    obtain ⟨key, p⟩ := entry
    obtain ⟨first, hp⟩ := shares_bind e p n
    obtain ⟨start, h⟩ := ih (p.bind e n).2
    have hn := Param.le_bind e p n
    have hrest := Param.le_bindAll e rest (p.bind e n).2
    refine ⟨fun place => if place.1 = key then first place.2 else start place, ?_, ?_, ?_⟩
    · intro place
      by_cases hk : place.1 = key
      · rw [bindAll_params_cons, component?_cons_self hk, component?_cons_self hk, if_pos hk]
        exact hp.bound place.2
      · rw [bindAll_params_cons, component?_cons_of_ne hk, component?_cons_of_ne hk, if_neg hk]
        exact h.bound place
    · intro place x hx
      by_cases hk : place.1 = key
      · rw [component?_cons_self hk] at hx
        rw [if_pos hk]
        exact ⟨(hp.within _ x hx).1, Nat.le_trans (hp.within _ x hx).2 hrest⟩
      · rw [component?_cons_of_ne hk] at hx
        rw [if_neg hk]
        exact ⟨Nat.le_trans hn (h.within _ x hx).1, (h.within _ x hx).2⟩
    · -- Identities of the first parameter are below those of all others.
      intro place other x y hne hx hy
      by_cases hk : place.1 = key <;> by_cases hk' : other.1 = key
      · rw [component?_cons_self hk] at hx
        rw [component?_cons_self hk'] at hy
        rw [if_pos hk, if_pos hk']
        exact hp.apart _ _ x y (fun h => hne (Prod.ext (hk.trans hk'.symm) h)) hx hy
      · rw [component?_cons_self hk] at hx
        rw [component?_cons_of_ne hk'] at hy
        rw [if_pos hk, if_neg hk']
        exact .inl (Nat.le_trans (hp.within _ x hx).2 (h.within _ y hy).1)
      · rw [component?_cons_of_ne hk] at hx
        rw [component?_cons_self hk'] at hy
        rw [if_neg hk, if_pos hk']
        exact .inr (Nat.le_trans (hp.within _ y hy).2 (h.within _ x hx).1)
      · rw [component?_cons_of_ne hk] at hx
        rw [component?_cons_of_ne hk'] at hy
        rw [if_neg hk, if_neg hk']
        exact h.apart _ _ x y hne hx hy

end

-- ---------------------------------------------------------------------------
-- One step down
-- ---------------------------------------------------------------------------

/-- What is nested in a builder is bound in its factory, before the factory takes its identity. -/
theorem shares_nested (e : Executor) (s : Signature) (params : Params Deferred) (n : Nat) :
    ∃ start, Shares e params.component? ((Deferred.unbound s params).bind e n).1.params.component? n
      ((Deferred.unbound s params).bind e n).1.id start :=
  shares_bindAll_params e params n

theorem Shares.nested?_eq {e : Executor} {s : Signature} {params : Params Deferred} {n m : Nat}
    {f : Factory} {start : String × Nat → Nat}
    (hs : Shares e params.component? f.params.component? n m start) {name : String}
    {position : Nat} :
    (Deferred.bound f).nested? name position =
      ((Deferred.unbound s params).nested? name position).map
        fun d => .bound (d.bind e (start (name, position))).1 := by
  rw [Deferred.nested?_bound, hs.bound (name, position), Option.map_map]
  rfl

section
variable {e : Executor} {d x : Deferred} {path : List (String × Nat)}

/-- A component that is reached is bound in its place, from some identity of the supply on. -/
theorem bound_at_reached (h : d.Reaches path x) (n : Nat) :
    ∃ m, n ≤ m ∧ (x.bind e m).2 ≤ (d.bind e n).2 ∧
      (Deferred.bound (d.bind e n).1).at? path = some (.bound (x.bind e m).1) := by
  induction h generalizing n with
  | here => exact ⟨n, Nat.le_refl n, Nat.le_refl _, rfl⟩
  | @nested s params name position inner x path step _ ih =>
    obtain ⟨start, hs⟩ := shares_nested e s params n
    obtain ⟨hlo, hhi⟩ := hs.within (name, position) inner step
    obtain ⟨m, hm, hx, hpath⟩ := ih (start (name, position))
    refine ⟨m, Nat.le_trans hlo hm, ?_, ?_⟩
    · exact Nat.le_trans hx (Nat.le_succ_of_le hhi)
    · rw [Deferred.at?, hs.nested?_eq (s := s), step]
      exact hpath

theorem made_at_reached (h : d.Reaches path x) (hx : x.isBound = false) (n : Nat) :
    ∃ f, (Deferred.bound (d.bind e n).1).at? path = some (.bound f) ∧ f.executor = e ∧
      n ≤ f.id ∧ f.id < (d.bind e n).2 := by
  obtain ⟨m, hm, hle, hat⟩ := bound_at_reached (e := e) h n
  cases x with
  | bound g => cases hx
  | unbound s params =>
    have hid : m ≤ (Param.bindAll e params m).2 := Param.le_bindAll e params m
    exact ⟨_, hat, rfl, Nat.le_trans hm hid, hle⟩

end

-- ---------------------------------------------------------------------------
-- All steps down
-- ---------------------------------------------------------------------------

section
variable {e : Executor} {d : Deferred} {path path' : List (String × Nat)} {x x' : Deferred}
  {f f' : Factory} {n : Nat}

theorem id_mem_share (h : d.Reaches path x) (hx : x.isBound = false)
    (hf : (Deferred.bound (d.bind e n).1).at? path = some (.bound f)) :
    n ≤ f.id ∧ f.id < (d.bind e n).2 := by
  obtain ⟨g, hg, -, hlo, hhi⟩ := made_at_reached (e := e) h hx n
  rw [hf] at hg
  cases hg
  exact ⟨hlo, hhi⟩

theorem id_lt_of_nested {s : Signature} {params : Params Deferred} {name : String} {position : Nat}
    {inner : Deferred} (step : (Deferred.unbound s params).nested? name position = some inner)
    (reached : inner.Reaches path x) (hx : x.isBound = false)
    (hf : (Deferred.bound ((Deferred.unbound s params).bind e n).1).at?
      ((name, position) :: path) = some (.bound f)) :
    f.id < ((Deferred.unbound s params).bind e n).1.id := by
  obtain ⟨start, hs⟩ := shares_nested e s params n
  rw [Deferred.at?, hs.nested?_eq (s := s), step] at hf
  exact Nat.lt_of_lt_of_le (id_mem_share reached hx hf).2 (hs.within (name, position) inner step).2

/-- Factories made at different places are different objects. -/
theorem path_eq_of_id_eq (h : d.Reaches path x) (hx : x.isBound = false)
    (h' : d.Reaches path' x') (hx' : x'.isBound = false)
    (hf : (Deferred.bound (d.bind e n).1).at? path = some (.bound f))
    (hf' : (Deferred.bound (d.bind e n).1).at? path' = some (.bound f')) (hid : f.id = f'.id) :
    path = path' := by
  induction h generalizing path' n with
  | here =>
    cases h' with
    | here => rfl
    | nested step reached =>
      cases hf
      exact absurd hid (Nat.ne_of_gt (id_lt_of_nested step reached hx' hf'))
  | @nested s params name position inner _ _ step reached ih =>
    cases h' with
    | here =>
      cases hf'
      exact absurd hid (Nat.ne_of_lt (id_lt_of_nested step reached hx hf))
    | @nested _ _ name' position' inner' _ _ step' reached' =>
      obtain ⟨start, hs⟩ := shares_nested e s params n
      rw [Deferred.at?, hs.nested?_eq (s := s), step] at hf
      rw [Deferred.at?, hs.nested?_eq (s := s), step'] at hf'
      by_cases hplace : (name, position) = (name', position')
      · cases hplace
        cases step.symm.trans step'
        rw [ih hx reached' hf hf']
      · -- The two places have shares of their own.
        have hid₁ := id_mem_share reached hx hf
        have hid₂ := id_mem_share reached' hx' hf'
        rcases hs.apart _ _ inner inner' hplace step step' with hle | hle
        · omega
        · omega

theorem isSome_at?_bind (path : List (String × Nat)) (n : Nat) :
    ((Deferred.bound (d.bind e n).1).at? path).isSome = (d.at? path).isSome := by
  induction path generalizing d n with
  | nil => rfl
  | cons place path ih =>
    obtain ⟨name, position⟩ := place
    cases d with
    | bound f => rfl
    | unbound s params =>
      obtain ⟨start, hs⟩ := shares_nested e s params n
      rw [Deferred.at?, Deferred.at?, hs.nested?_eq (s := s)]
      cases (Deferred.unbound s params).nested? name position with
      | none => rfl
      | some inner => exact ih (start (name, position))

theorem issued_bind (h : d.Issued n) : (Deferred.bound (d.bind e n).1).Issued (d.bind e n).2 := by
  intro path g hg
  induction path generalizing d n with
  | nil =>
    cases hg
    cases d with
    | bound f => exact h [] f rfl
    | unbound s params => exact Nat.lt_succ_self _
  | cons place path ih =>
    obtain ⟨name, position⟩ := place
    cases d with
    | bound f => exact h _ g hg
    | unbound s params =>
      obtain ⟨start, hs⟩ := shares_nested e s params n
      rw [Deferred.at?, hs.nested?_eq (s := s)] at hg
      cases hstep : (Deferred.unbound s params).nested? name position with
      | none =>
        rw [hstep] at hg
        cases hg
      | some inner =>
        rw [hstep] at hg
        obtain ⟨hlo, hhi⟩ := hs.within (name, position) inner hstep
        have hinner : inner.Issued (start (name, position)) := by
          intro rest k hk
          refine Nat.lt_of_lt_of_le (h ((name, position) :: rest) k ?_) hlo
          rw [Deferred.at?, hstep]
          exact hk
        -- The factory of a builder is made last, so those below it have smaller identities.
        exact Nat.lt_of_lt_of_le (ih hinner hg) (Nat.le_succ_of_le hhi)

end

/-- In what a component is bound to, there is a factory of its own on the executor in place of every
builder, and all that it defers to is bound; every factory that was bound is still in its place, the
same object; and there are no other places. -/
theorem bind_reached {e : Executor} {d : Deferred} {supply rest : Nat} {made : Factory}
    (h : d.bind e supply = (made, rest)) :
    (∀ path s params, d.Reaches path (.unbound s params) →
      ∃ f, (Deferred.bound made).at? path = some (.bound f) ∧ f.executor = e ∧
        supply ≤ f.id ∧ f.id < rest ∧
          ∀ entry ∈ (Deferred.bound f).params, entry.2.isBound = true) ∧
    (∀ path path' s s' params params' f f', d.Reaches path (.unbound s params) →
      d.Reaches path' (.unbound s' params') →
      (Deferred.bound made).at? path = some (.bound f) →
      (Deferred.bound made).at? path' = some (.bound f') → f.id = f'.id → path = path') ∧
    (∀ path f, d.Reaches path (.bound f) → (Deferred.bound made).at? path = some (.bound f)) ∧
    (∀ path, ((Deferred.bound made).at? path).isSome = (d.at? path).isSome) ∧
    (d.Issued supply → (Deferred.bound made).Issued rest) := by
  obtain rfl : (d.bind e supply).1 = made := congrArg Prod.fst h
  obtain rfl : (d.bind e supply).2 = rest := congrArg Prod.snd h
  refine ⟨?_, ?_, ?_, fun path => isSome_at?_bind path supply, issued_bind⟩
  · intro path s params hr
    obtain ⟨f, hat, he, hlo, hhi⟩ := made_at_reached (e := e) hr rfl supply
    exact ⟨f, hat, he, hlo, hhi, isBound_params⟩
  · intro path path' s s' params params' f f' hr hr' hf hf' hid
    exact path_eq_of_id_eq hr rfl hr' rfl hf hf' hid
  · intro path f hr
    obtain ⟨m, -, -, hat⟩ := bound_at_reached (e := e) hr supply
    exact hat

theorem bind_reached_preconditioned_cg :
    let time : Factory := .mk 3 (.reference 0) ⟨.time, none, none⟩ []
    let iteration : Deferred :=
      .unbound ⟨.iteration, none, none⟩ (Component.iteration.initialParams ⟨.float64, .int32⟩)
    let bicg : Deferred :=
      .unbound ⟨.bicg, some .float64, none⟩ [("criteria", .factories [iteration])]
    let cg : Deferred := .unbound ⟨.cg, some .float64, none⟩
      [("criteria", .factories [iteration, .bound time]), ("preconditioner", .factory bicg)]
    ∃ made rest, cg.bind (.reference 1) 7 = (made, rest) ∧
      (∃ f, f.executor = .reference 1 ∧ 7 ≤ f.id ∧
        (Deferred.bound made).at? [("preconditioner", 0), ("criteria", 0)] = some (.bound f)) ∧
      (Deferred.bound made).at? [("criteria", 1)] = some (.bound time) := by
  intro time iteration bicg cg
  obtain ⟨hmade, -, hkept, -, -⟩ := bind_reached (rfl : cg.bind (.reference 1) 7 = (_, _))
  obtain ⟨f, hat, he, hid, -⟩ := hmade [("preconditioner", 0), ("criteria", 0)] _ _
    (.nested rfl (.nested rfl .here))
  exact ⟨_, _, rfl, ⟨f, he, hid, hat⟩, hkept [("criteria", 1)] time (.nested rfl .here)⟩

end SolverConfig
