import SolverConfig.Proofs.Binding
import SolverConfig.Proofs.Descent

/-!
# Registered objects are shared

Where a configuration mentions a name, the builder holds the object that is registered under it,
and so does the factory that the builder is bound to: nothing is copied, and every mention of a name
is one and the same object.
-/

namespace SolverConfig

-- ---------------------------------------------------------------------------
-- Objects in parameters
-- ---------------------------------------------------------------------------

/-- A component as an object, if it is bound. -/
def Deferred.held? : Deferred → Option Object
  | .unbound .. => none
  | .bound f => some (.factory f)

/-- The object that a parameter holds at a position: its operator, or a factory that is bound. -/
def Param.object? : Param Deferred → Nat → Option Object
  | .operator o, 0 => some (.operator o)
  | p, position => p.components[position]?.bind Deferred.held?

def Deferred.object? (d : Deferred) (path : List (String × Nat)) (name : String)
    (position : Nat) : Option Object :=
  (d.at? path).bind fun inner => (inner.params.lookup name).bind fun p => p.object? position

section
variable {p : Param Deferred} {position : Nat} {o : Object} {params : Params Deferred}
  {name : String}

theorem held?_eq_some_iff {d : Deferred} :
    d.held? = some o ↔ ∃ f, d = .bound f ∧ .factory f = o := by
  cases d <;> simp [Deferred.held?]

theorem object?_eq_some_iff :
    p.object? position = some o ↔
      (∃ held, p = .operator held ∧ position = 0 ∧ .operator held = o) ∨
        ∃ f, p.components[position]? = some (.bound f) ∧ .factory f = o := by
  cases p with
  | operator held => cases position <;> simp [Param.object?, Param.components]
  | _ => simp [Param.object?, Option.bind_eq_some_iff, held?_eq_some_iff]

theorem object?_bind (e : Executor) (n : Nat) (h : p.object? position = some o) :
    ((p.bind e n).1.map .bound).object? position = some o := by
  rw [object?_eq_some_iff] at h ⊢
  rcases h with ⟨held, rfl, rfl, rfl⟩ | ⟨f, hf, rfl⟩
  · exact .inl ⟨held, rfl, rfl, rfl⟩
  · obtain ⟨start, hs⟩ := shares_bind e p n
    refine .inr ⟨f, ?_, rfl⟩
    rw [Param.components_map, List.getElem?_map, hs.bound position, hf]
    rfl

theorem lookup_bindAll (e : Executor) (n : Nat) (h : params.lookup name = some p) :
    ∃ m, (Param.bindAll e params n).1.lookup name = some (p.bind e m).1 := by
  induction params generalizing n with
  | nil => cases h
  | cons entry rest ih =>
    obtain ⟨key, first⟩ := entry
    rw [bindAll_params_cons, List.lookup_cons]
    rw [List.lookup_cons] at h
    cases hk : name == key with
    | true =>
      rw [hk] at h
      cases h
      exact ⟨n, rfl⟩
    | false =>
      rw [hk] at h
      exact ih _ h

end

-- ---------------------------------------------------------------------------
-- From the tree to the builder
-- ---------------------------------------------------------------------------

section
variable {β : Type} {ctx : Context β} {c : Component} {types : Instantiation} {f : Field}
  {t : Tree} {p : Param Deferred} {position : Nat} {s : String}

theorem registered_of_says_name {g : Family} {d : Deferred}
    (h : ctx.SaysObject g types (.text s) d) :
    ∃ r, ctx.registry.objects.lookup s = some (.factory r) ∧ d = .bound r := by
  obtain _ | ⟨hr, -⟩ := h
  exact ⟨_, hr, rfl⟩

theorem object?_of_says (h : ctx.Says c types f t p) (hn : f.shape.Names t position s) :
    ∃ o, ctx.registry.objects.lookup s = some o ∧ p.object? position = some o := by
  generalize hs : f.shape = shape at hn
  cases hn with
  | object =>
    obtain ⟨d, hd, rfl⟩ := (says_object hs).mp h
    obtain ⟨r, hr, rfl⟩ := registered_of_says_name hd
    exact ⟨_, hr, rfl⟩
  | objects ho =>
    obtain ⟨ds, hds, rfl⟩ := (says_objects hs).mp h
    obtain ⟨d, hat, hd⟩ := hds.objectAt ho
    obtain ⟨r, hr, rfl⟩ := registered_of_says_name hd
    exact ⟨_, hr, object?_eq_some_iff.mpr (.inr ⟨r, hat, rfl⟩)⟩
  | reference =>
    obtain ⟨_, held, ⟨⟩, hheld, rfl⟩ := (says_reference hs).mp h
    exact ⟨_, operator_ok.mp hheld, rfl⟩

end

theorem Deferred.Reaches.concat {d inner : Deferred} {s : Signature} {params : Params Deferred}
    {path : List (String × Nat)} {name : String} {position : Nat}
    (h : d.Reaches path (.unbound s params))
    (step : (Deferred.unbound s params).nested? name position = some inner) :
    d.Reaches (path ++ [(name, position)]) inner := by
  generalize hx : Deferred.unbound s params = x at h
  induction h with
  | here =>
    subst hx
    exact .nested step .here
  | nested first _ ih => exact .nested first (ih hx)

theorem Deferred.Reaches.at? {d inner : Deferred} {path : List (String × Nat)}
    (h : d.Reaches path inner) : d.at? path = some inner := by
  induction h with
  | here => rfl
  | nested step _ ih =>
    rw [Deferred.at?, step]
    exact ih

section
variable {β : Type} {ctx : Context β} {kind : Kind} {inherited : Instantiation} {root : Tree}
  {d : Deferred}

/-- The builder of a node that is reached is reached through builders. -/
theorem reaches_of_descends {path : List (String × Nat)} {here : Kind} {node : Tree}
    {above : List Tree} (h : (ctx.parse kind root inherited).result = .ok d)
    (hr : Descends kind root path here node above) :
    ∃ around inner, (ctx.parse here node around).result = .ok inner ∧ d.Reaches path inner := by
  -- From the root down: the builder of a node holds the builder of each object nested in it.
  induction hr with
  | root => exact ⟨inherited, d, h, .here⟩
  | field _ hc hf hs ht ho hm ih =>
    obtain ⟨around, outer, houter, hreaches⟩ := ih
    obtain ⟨_, _, -, -, rfl, -⟩ := parse_ok_unbound houter hc
    obtain ⟨types, inner, -, hinner, hstep⟩ := parse_nested_ok houter hc hf hs ht ho hm
    exact ⟨types, inner, hinner, hreaches.concat hstep⟩

theorem object?_of_mentions {path : List (String × Nat)} {f : Field} {position : Nat} {s : String}
    (h : (ctx.parse kind root inherited).result = .ok d)
    (hm : Mentions kind root path f position s) (e : Executor) (n : Nat) :
    ∃ o, ctx.registry.objects.lookup s = some o ∧ d.object? path f.name position = some o ∧
      (Deferred.bound (d.bind e n).1).object? path f.name position = some o := by
  obtain ⟨hr, hc, hf, ht, hn⟩ := hm
  obtain ⟨around, inner, hinner, hreaches⟩ := reaches_of_descends h hr
  obtain ⟨types, params, -, -, rfl, hshapes, entries, rfl, hread⟩ := parse_ok_unbound hinner hc
  obtain ⟨p, hp, hl⟩ := says_of_readFields hread hf ht (hshapes f hf _ ht)
  obtain ⟨o, ho, hheld⟩ := object?_of_says hp hn
  refine ⟨o, ho, ?_, ?_⟩
  · rw [Deferred.object?, hreaches.at?]
    simp [Deferred.params, hl, hheld]
  · obtain ⟨m, -, -, hat⟩ := bound_at_reached (e := e) hreaches n
    obtain ⟨k, hk⟩ := lookup_bindAll e m hl
    rw [Deferred.object?, hat, Option.bind_some]
    refine Option.bind_eq_some_iff.mpr ⟨_, ?_, object?_bind e k hheld⟩
    exact Params.lookup_mapComponents.trans (congrArg _ hk)

end

/-- A parse that succeeds makes a builder that holds, wherever the tree mentions a name, the object
that is registered under it, and bound to any executor the builder still holds that object there. So
mentions of one name hold one object. -/
theorem parse_shares {β : Type} (ctx : Context β) {kind : Kind} {root : Tree}
    {inherited : Instantiation} {d : Deferred}
    (h : (ctx.parse kind root inherited).result = .ok d) (e : Executor) (supply : Nat) :
    (∀ path f position s, Mentions kind root path f position s →
      ∃ o, ctx.registry.objects.lookup s = some o ∧ d.object? path f.name position = some o ∧
        (Deferred.bound (d.bind e supply).1).object? path f.name position = some o) ∧
    ∀ path path' f f' position position' s, Mentions kind root path f position s →
      Mentions kind root path' f' position' s →
      d.object? path f.name position = d.object? path' f'.name position' ∧
        (Deferred.bound (d.bind e supply).1).object? path f.name position =
          (Deferred.bound (d.bind e supply).1).object? path' f'.name position' := by
  refine ⟨fun path f position s hm => object?_of_mentions h hm e supply, ?_⟩
  intro path path' f f' position position' s hm hm'
  obtain ⟨o, ho, hbuilder, hbound⟩ := object?_of_mentions h hm e supply
  obtain ⟨o', ho', hbuilder', hbound'⟩ := object?_of_mentions h hm' e supply
  cases ho.symm.trans ho'
  exact ⟨hbuilder.trans hbuilder'.symm, hbound.trans hbound'.symm⟩

theorem parse_shares_time :
    let time : Factory := .mk 3 ⟨1, "host"⟩ ⟨.time, none, none⟩ []
    let matrix : Operator := ⟨4, ⟨1, "host"⟩, .float64, ⟨0, 0, []⟩⟩
    let ctx : Context Empty :=
      ⟨⟨[("limit", .factory time), ("matrix", .operator matrix)], []⟩, nofun, .strict⟩
    let bicg : Tree := .map [("Type", .text "solver::Bicg"), ("criteria", .array
      [.map [("Type", .text "Iteration"), ("max_iters", .integer 5)], .text "limit"])]
    let root : Tree := .map [("Type", .text "solver::Cg"), ("criteria", .text "limit"),
      ("preconditioner", bicg), ("generated_preconditioner", .text "matrix")]
    ∃ d, (ctx.parse (.family .linOp) root ⟨.float64, .int32⟩).result = .ok d ∧
      let made := Deferred.bound (d.bind ⟨2, "device"⟩ 7).1
      made.object? [] "criteria" 0 = some (.factory time) ∧
        made.object? [("preconditioner", 0)] "criteria" 1 = some (.factory time) ∧
        made.object? [] "generated_preconditioner" 0 = some (.operator matrix) := by
  intro time matrix ctx bicg root
  have hroot : NamesComponent (.family .linOp) root .cg := ⟨_, rfl, by decide⟩
  have hbicg : NamesComponent (.family .linOp) bicg .bicg := ⟨_, rfl, by decide⟩
  have hfield : ∀ i (hi : i < Component.cg.fields.length),
      Component.cg.fields[i] ∈ Component.cg.fields := fun _ _ => List.getElem_mem _
  have hnested : Descends (.family .linOp) root [("preconditioner", 0)] (.family .linOp) bicg
      [root] := .field .root hroot (hfield 1 (by decide)) (.inl rfl) rfl rfl rfl
  obtain ⟨d, hd⟩ : ∃ d, (ctx.parse (.family .linOp) root ⟨.float64, .int32⟩).result = .ok d :=
    ⟨_, rfl⟩
  obtain ⟨hheld, -⟩ := parse_shares ctx hd ⟨2, "device"⟩ 7
  obtain ⟨_, ⟨⟩, -, hlimit⟩ := hheld _ _ 0 "limit"
    (.intro .root hroot (hfield 0 (by decide)) rfl (.objects rfl))
  obtain ⟨_, ⟨⟩, -, hlist⟩ := hheld _ _ 1 "limit"
    (.intro hnested hbicg (List.mem_cons_self : Field.criteria ∈ _) rfl (.objects rfl))
  obtain ⟨_, ⟨⟩, -, hmatrix⟩ := hheld _ _ 0 "matrix"
    (.intro .root hroot (hfield 2 (by decide)) rfl .reference)
  exact ⟨d, hd, hlimit, hlist, hmatrix⟩

end SolverConfig
