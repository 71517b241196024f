import SolverConfig.Proofs.Basic
import SolverConfig.Proofs.Stages
import SolverConfig.Proofs.Trees

/-!
# What a node says

A field of a node says what the parameter of its name is to be: the value that the tree under it
converts to, the builders of the nodes nested there, or the registered objects named there.
-/

namespace SolverConfig

namespace Context

variable {β : Type} (ctx : Context β)

/-- What a tree says as one object of a family: the builder of the node that it is, or the
registered factory that it names. -/
inductive SaysObject (f : Family) (types : Instantiation) : Tree → Deferred → Prop
  | node {entries : Tree.Entries} {d : Deferred}
      (parsed : (ctx.parse (.family f) (.map entries) types).result = .ok d)
      (family : d.family = f) : SaysObject f types (.map entries) d
  | name {s : String} {g : Factory}
      (registered : ctx.registry.objects.lookup s = some (.factory g))
      (family : g.family = f) : SaysObject f types (.text s) (.bound g)

/-- What a tree says as several objects: one for each element of an array, and one alone for
anything else. -/
inductive SaysObjects (f : Family) (types : Instantiation) : Tree → List Deferred → Prop
  | one {t : Tree} {d : Deferred} (object : ctx.SaysObject f types t d) :
      SaysObjects f types t [d]
  | array {items : List Tree} {ds : List Deferred}
      (objects : List.Forall₂ (ctx.SaysObject f types) items ds) :
      SaysObjects f types (.array items) ds

inductive Says (c : Component) (types : Instantiation) (f : Field) : Tree → Param Deferred → Prop
  | value {t : Tree} {q : Quantity} {v : (q.target types).Carrier}
      (converted : f.shape.isConverted = true) (accepts : f.shape.accepts t = true)
      (quantity : c.quantity? f.name = some q) (converts : (q.target types).convert t = .ok v) :
      Says c types f t (.value (q.target types) v)
  | object {t : Tree} {g : Family} {d : Deferred} (shape : f.shape = .object g)
      (object : ctx.SaysObject g types t d) : Says c types f t (.factory d)
  | objects {t : Tree} {g : Family} {ds : List Deferred} (shape : f.shape = .objects g)
      (objects : ctx.SaysObjects g types t ds) : Says c types f t (.factories ds)
  | reference {s : String} {o : Operator} (shape : f.shape = .reference)
      (registered : ctx.registry.objects.lookup s = some (.operator o)) :
      Says c types f (.text s) (.operator o)

end Context

-- ---------------------------------------------------------------------------
-- Objects
-- ---------------------------------------------------------------------------

theorem factory_ok {β : Type} {r : Registry β} {f : Family} {s : String} {g : Factory} :
    r.factory f s = .ok g ↔ r.objects.lookup s = some (.factory g) ∧ g.family = f := by
  unfold Registry.factory Registry.object
  cases r.objects.lookup s with
  | none => simp
  | some o =>
    cases o with
    | operator o => simp
    | factory h =>
      dsimp only
      split
      · next hf => simp; rintro rfl; exact hf
      · next hf => simp; rintro rfl; exact hf

theorem operator_ok {β : Type} {r : Registry β} {s : String} {o : Operator} :
    r.operator s = .ok o ↔ r.objects.lookup s = some (.operator o) := by
  unfold Registry.operator Registry.object
  cases r.objects.lookup s with
  | none => simp
  | some o => cases o <;> simp

theorem intoFamily_ok {d d' : Deferred} {f : Family} :
    d.intoFamily f = .ok d' ↔ d' = d ∧ d.family = f := by
  unfold Deferred.intoFamily
  split <;> simp_all [eq_comm]

theorem collect_ok {α : Type} {os : List (Outcome α)} {as : List α} :
    (collect os).result = .ok as ↔ List.Forall₂ (fun o a => o.result = .ok a) os as := by
  induction os generalizing as with
  | nil => simp [collect, eq_comm]
  | cons o rest ih =>
    simp only [collect, Outcome.bind_eq, Outcome.bind_result_eq_ok, Outcome.result_pure, ih,
      List.forall₂_cons_left_iff, Except.ok.injEq]
    constructor
    · rintro ⟨a, ha, as, has, rfl⟩
      exact ⟨a, as, ha, has, rfl⟩
    · rintro ⟨a, as, ha, has, rfl⟩
      exact ⟨a, ha, as, has, rfl⟩

section
variable {β : Type} {ctx : Context β} {f : Family} {types : Instantiation} {t : Tree}

theorem object_ok {d : Deferred} :
    ((ctx.part t).object f types).result = .ok d ↔ ctx.SaysObject f types t d := by
  cases t with
  | map entries =>
    rw [ctx.object_part_map]
    simp only [Context.parseFamily, Outcome.bind_eq, Outcome.bind_result_eq_ok,
      Outcome.result_lift, intoFamily_ok]
    constructor
    · rintro ⟨d, hd, rfl, hf⟩
      exact .node hd hf
    · rintro ⟨hd, hf⟩
      exact ⟨d, hd, rfl, hf⟩
  | text s =>
    have h : ((ctx.part (.text s)).object f types).result =
        (ctx.registry.factory f s).map .bound := rfl
    rw [h, map_ok]
    constructor
    · rintro ⟨g, hg, rfl⟩
      obtain ⟨hr, hf⟩ := factory_ok.mp hg
      exact .name hr hf
    · rintro (_ | ⟨hr, hf⟩)
      exact ⟨_, factory_ok.mpr ⟨hr, hf⟩, rfl⟩
  | _ => exact ⟨fun h => (nomatch h), fun h => (nomatch h)⟩

theorem objects_part_of_not_array (h : t.isArray = false) :
    (ctx.part t).objects f types =
      ((ctx.part t).object f types).bind fun d => .ofExcept (.ok [d]) := by
  cases t <;> first | rfl | cases h

theorem objects_ok {ds : List Deferred} :
    ((ctx.part t).objects f types).result = .ok ds ↔ ctx.SaysObjects f types t ds := by
  cases ha : t.isArray with
  | false =>
    rw [objects_part_of_not_array ha]
    simp only [Outcome.bind_result_eq_ok, object_ok, Outcome.result_ofExcept, Except.ok.injEq]
    constructor
    · rintro ⟨d, hd, rfl⟩
      exact .one hd
    · rintro (⟨hd⟩ | _)
      · exact ⟨_, hd, rfl⟩
      · cases ha
  | true =>
    obtain ⟨items, rfl⟩ := Tree.exists_of_isArray ha
    have h : (ctx.part (.array items)).objects f types =
        collect ((ctx.elements items).map fun read => read f types) := rfl
    rw [h, collect_ok, ctx.elements_eq_map]
    simp only [List.map_map, List.forall₂_map_left_iff, Function.comp_apply, object_ok]
    constructor
    · exact .array
    · rintro (⟨⟨⟩⟩ | ⟨h⟩)
      exact h

end

-- ---------------------------------------------------------------------------
-- Fields
-- ---------------------------------------------------------------------------

theorem quantity?_of_parameter? {c : Component} {name : String} {p : Parameter}
    (h : c.parameter? name = some p) : c.quantity? name = p.type.quantity? := by
  simp [Component.quantity?, h]

theorem isConverted_shape (q : Quantity) : q.shape.isConverted = true := by cases q <;> rfl

section
variable {β : Type} {ctx : Context β} {c : Component} {types : Instantiation} {f : Field}
  {t : Tree} {p : Param Deferred}

theorem says_converted {q : Quantity} (hs : f.shape.isConverted = true)
    (hq : c.quantity? f.name = some q) :
    ctx.Says c types f t p ↔ f.shape.accepts t = true ∧
      ∃ v, (q.target types).convert t = .ok v ∧ .value (q.target types) v = p := by
  constructor
  · rintro (⟨_, ha, hq', hv⟩ | ⟨h, _⟩ | ⟨h, _⟩ | ⟨h, _⟩)
    · cases hq.symm.trans hq'
      exact ⟨ha, _, hv, rfl⟩
    all_goals simp [h, Shape.isConverted] at hs
  · rintro ⟨ha, v, hv, rfl⟩
    exact .value hs ha hq hv

theorem says_object {g : Family} (hs : f.shape = .object g) :
    ctx.Says c types f t p ↔ ∃ d, ctx.SaysObject g types t d ∧ .factory d = p := by
  constructor
  · rintro (⟨h, _⟩ | ⟨h, ho⟩ | ⟨h, _⟩ | ⟨h, _⟩)
    · simp [hs, Shape.isConverted] at h
    · cases hs.symm.trans h
      exact ⟨_, ho, rfl⟩
    all_goals simp [hs] at h
  · rintro ⟨d, hd, rfl⟩
    exact .object hs hd

theorem says_objects {g : Family} (hs : f.shape = .objects g) :
    ctx.Says c types f t p ↔ ∃ ds, ctx.SaysObjects g types t ds ∧ .factories ds = p := by
  constructor
  · rintro (⟨h, _⟩ | ⟨h, _⟩ | ⟨h, ho⟩ | ⟨h, _⟩)
    · simp [hs, Shape.isConverted] at h
    · simp [hs] at h
    · cases hs.symm.trans h
      exact ⟨_, ho, rfl⟩
    · simp [hs] at h
  · rintro ⟨ds, hds, rfl⟩
    exact .objects hs hds

theorem says_reference (hs : f.shape = .reference) :
    ctx.Says c types f t p ↔
      ∃ s o, t = .text s ∧ ctx.registry.operator s = .ok o ∧ .operator o = p := by
  constructor
  · rintro (⟨h, _⟩ | ⟨h, _⟩ | ⟨h, _⟩ | ⟨_, hr⟩)
    · simp [hs, Shape.isConverted] at h
    · simp [hs] at h
    · simp [hs] at h
    · exact ⟨_, _, rfl, operator_ok.mpr hr, rfl⟩
  · rintro ⟨s, o, rfl, ho, rfl⟩
    exact .reference hs (operator_ok.mp ho)

theorem Context.SaysObject.isObject {g : Family} {d : Deferred} (h : ctx.SaysObject g types t d) :
    Shape.isObject t = true := by
  cases h <;> rfl

theorem Context.SaysObjects.accepts {g : Family} {ds : List Deferred}
    (h : ctx.SaysObjects g types t ds) : (Shape.objects g).accepts t = true := by
  cases h with
  | one h => simp [Shape.accepts, h.isObject]
  | @array items _ h =>
    have hall : ∀ item ∈ items, Shape.isObject item = true := fun item hi => by
      obtain ⟨d, hd⟩ := forall₂_exists.mp ⟨_, h⟩ item hi
      exact hd.isObject
    simpa [Shape.accepts, Shape.isArrayOf, Tree.asArray?] using Or.inr hall

theorem readField_ok (hf : f ∈ c.fields) {parameter : Parameter}
    (hp : c.parameter? f.name = some parameter) :
    f.shape.accepts t = true ∧ (ctx.readField types parameter (ctx.part t)).result = .ok p ↔
      ctx.Says c types f t p := by
  have hs : parameter.type.shape = f.shape := Component.shape_of_parameter? hf hp
  have hq := quantity?_of_parameter? hp
  unfold Context.readField
  cases ht : parameter.type with
  | leaf q _ | optionalLeaf q =>
    simp only [ht, ParameterType.shape, ParameterType.quantity?] at hs hq
    rw [says_converted (hs ▸ isConverted_shape q) hq]
    simp only [Outcome.result_ofExcept, map_ok, mapError_ok, Context.tree_part]
  | factory g =>
    replace hs : f.shape = .object g := by rw [← hs, ht]; rfl
    rw [says_object hs]
    simp only [Outcome.bind_eq, Outcome.bind_result_eq_ok, Outcome.result_pure, object_ok,
      Except.ok.injEq]
    constructor
    · exact fun h => h.2
    · rintro ⟨d, hd, rfl⟩
      exact ⟨by rw [hs]; exact hd.isObject, d, hd, rfl⟩
  | factories g =>
    replace hs : f.shape = .objects g := by rw [← hs, ht]; rfl
    rw [says_objects hs]
    simp only [Outcome.bind_eq, Outcome.bind_result_eq_ok, Outcome.result_pure, objects_ok,
      Except.ok.injEq]
    constructor
    · exact fun h => h.2
    · rintro ⟨ds, hds, rfl⟩
      exact ⟨by rw [hs]; exact hds.accepts, ds, hds, rfl⟩
  | operator =>
    replace hs : f.shape = .reference := by rw [← hs, ht]; rfl
    rw [says_reference hs, hs, Context.tree_part]
    cases t <;> simp [Shape.accepts, Tree.asText?, map_ok]

end

-- ---------------------------------------------------------------------------
-- Parameter sets
-- ---------------------------------------------------------------------------

theorem lookup_assign {params : Params Deferred} {name other : String} {p : Param Deferred} :
    (params.assign name p).lookup other =
      if other = name then (params.lookup name).map fun _ => p else params.lookup other := by
  induction params with
  | nil => simp [Params.assign]
  | cons entry rest ih =>
    obtain ⟨key, old⟩ := entry
    rw [show Params.assign ((key, old) :: rest) name p =
      (key, if key = name then p else old) :: Params.assign rest name p from rfl]
    simp only [List.lookup_cons, ih]
    by_cases hk : other = key
    · subst hk
      by_cases hn : other = name <;> simp [hn]
    · by_cases hn : other = name
      · subst hn
        simp [beq_false_of_ne hk]
      · simp [beq_false_of_ne hk, hn]

theorem lookup_initialParams {c : Component} {types : Instantiation} {name : String} :
    (c.initialParams types).lookup name =
      (c.parameter? name).map fun p => p.type.initial types := by
  unfold Component.initialParams Component.parameter?
  induction c.parameters with
  | nil => rfl
  | cons p rest ih =>
    simp only [List.map_cons, List.lookup_cons, List.find?_cons, ih, Bool.beq_comm (a := p.name)]
    cases name == p.name <;> rfl

section
variable {β : Type} {ctx : Context β} {c : Component} {types : Instantiation}
  {parts : List (String × Part)} {names : List String} {params params' : Params Deferred}
  {name : String}

theorem readFields_cons_ok {rest : List String} :
    (ctx.readFields c types parts (name :: rest) params).result = .ok params' ↔
      (∃ part parameter p, parts.lookup name = some part ∧ c.parameter? name = some parameter ∧
        (ctx.readField types parameter part).result = .ok p ∧
        (ctx.readFields c types parts rest (params.assign name p)).result = .ok params') ∨
      (parts.lookup name = none ∨ c.parameter? name = none) ∧
        (ctx.readFields c types parts rest params).result = .ok params' := by
  rw [Context.readFields]
  cases parts.lookup name with
  | none => simp
  | some part =>
    cases c.parameter? name with
    | none => simp
    | some parameter => simp [Outcome.bind_eq, Outcome.bind_result_eq_ok]

theorem lookup_readFields_of_left_out
    (hn : name ∉ names ∨ parts.lookup name = none ∨ c.parameter? name = none)
    (h : (ctx.readFields c types parts names params).result = .ok params') :
    params'.lookup name = params.lookup name := by
  induction names generalizing params with
  | nil =>
    cases h
    rfl
  | cons first rest ih =>
    have hrest : name ∉ rest ∨ parts.lookup name = none ∨ c.parameter? name = none :=
      hn.imp_left fun hn hm => hn (List.mem_cons_of_mem _ hm)
    rcases readFields_cons_ok.mp h with ⟨part, _, p, hpart, hp, -, h⟩ | ⟨-, h⟩
    · have hne : name ≠ first := by
        rintro rfl
        simp [hpart, hp] at hn
      rw [ih hrest h, lookup_assign, if_neg hne]
    · exact ih hrest h

theorem lookup_readFields_of_read {part : Part} {parameter : Parameter} (hn : name ∈ names)
    (hpart : parts.lookup name = some part) (hp : c.parameter? name = some parameter)
    (h : (ctx.readFields c types parts names params).result = .ok params') :
    ∃ p, (ctx.readField types parameter part).result = .ok p ∧
      params'.lookup name = (params.lookup name).map fun _ => p := by
  induction names generalizing params with
  | nil => cases hn
  | cons first rest ih =>
    rcases readFields_cons_ok.mp h with ⟨part', parameter', p, hpart', hp', hr, h⟩ | ⟨hnone, h⟩
    · by_cases hm : name ∈ rest
      · obtain ⟨p', hr', hl⟩ := ih hm h
        refine ⟨p', hr', ?_⟩
        rw [hl, lookup_assign]
        split
        · next heq =>
          subst heq
          rw [Option.map_map]
          rfl
        · rfl
      · -- The last field of this name: what it sets stays.
        obtain rfl : name = first := by simpa [hm] using hn
        cases hpart.symm.trans hpart'
        cases hp.symm.trans hp'
        refine ⟨p, hr, ?_⟩
        rw [lookup_readFields_of_left_out (.inl hm) h, lookup_assign, if_pos rfl]
    · have hne : name ≠ first := by
        rintro rfl
        simp [hpart, hp] at hnone
      exact ih (List.mem_of_ne_of_mem hne hn) h

theorem readFields_ok :
    (∃ params', (ctx.readFields c types parts names params).result = .ok params') ↔
      ∀ name ∈ names, ∀ part parameter, parts.lookup name = some part →
        c.parameter? name = some parameter →
          ∃ p, (ctx.readField types parameter part).result = .ok p := by
  -- Whether a field can be read does not depend on the parameters read before it.
  induction names generalizing params with
  | nil => simp [Context.readFields]
  | cons first rest ih =>
    rw [List.forall_mem_cons]
    constructor
    · rintro ⟨params', h⟩
      rcases readFields_cons_ok.mp h with ⟨part, parameter, p, hpart, hp, hr, h⟩ | ⟨hnone, h⟩
      · refine ⟨fun part' parameter' hpart' hp' => ?_, ih.mp ⟨_, h⟩⟩
        cases hpart.symm.trans hpart'
        cases hp.symm.trans hp'
        exact ⟨p, hr⟩
      · refine ⟨fun part parameter hpart hp => ?_, ih.mp ⟨_, h⟩⟩
        simp [hpart, hp] at hnone
    · rintro ⟨hfirst, hrest⟩
      cases hpart : parts.lookup first with
      | none =>
        obtain ⟨params', h⟩ := ih.mpr hrest
        exact ⟨params', readFields_cons_ok.mpr (.inr ⟨.inl hpart, h⟩)⟩
      | some part =>
        cases hp : c.parameter? first with
        | none =>
          obtain ⟨params', h⟩ := ih.mpr hrest
          exact ⟨params', readFields_cons_ok.mpr (.inr ⟨.inr hp, h⟩)⟩
        | some parameter =>
          obtain ⟨p, hr⟩ := hfirst part parameter hpart hp
          obtain ⟨params', h⟩ := ih.mpr hrest
          exact ⟨params', readFields_cons_ok.mpr (.inl ⟨part, parameter, p, hpart, hp, hr, h⟩)⟩

end

-- ---------------------------------------------------------------------------
-- Nodes
-- ---------------------------------------------------------------------------

section
variable {β : Type} {ctx : Context β} {kind : Kind} {inherited types : Instantiation}
  {entries : Tree.Entries} {c : Component} {d : Deferred} {params : Params Deferred}

theorem isMap_of_parse_ok {tree : Tree} (h : (ctx.parse kind tree inherited).result = .ok d) :
    ∃ entries, tree = .map entries := by
  cases tree with
  | map entries => exact ⟨entries, rfl⟩
  | _ => nomatch h

/-- The stages of a node that names a component. -/
theorem parse_component_ok (hc : NamesComponent kind (.map entries) c) :
    (ctx.parse kind (.map entries) inherited).result = .ok d ↔
      ∃ types params, TypesInEffect (.map entries) inherited types ∧
        kind.admits c = true ∧ c.supports types = true ∧
        (ctx.strictness = .strict → ∀ entry ∈ entries, c.knows entry.1 = true) ∧
        (∀ f ∈ c.fields, (f.required = true → (entries.lookup f.name).isSome = true) ∧
          ∀ t, entries.lookup f.name = some t → f.shape.accepts t = true) ∧
        (ctx.readFields c types (ctx.parts entries) c.reads (c.initialParams types)).result =
          .ok params ∧
        d = .unbound (c.signature types) params := by
  obtain ⟨name, hname, hfind⟩ := typeName_ok.mpr hc
  simp only [Context.parse, Context.dispatch, Context.readComponent, Outcome.bind_eq,
    Outcome.bind_result_eq_ok, Outcome.result_lift, Outcome.result_pure, resolve_ok, hname,
    Except.ok.injEq, exists_eq_left', hfind, select_ok, checkShapes_ok]
  constructor
  · rintro ⟨types, htypes, _, ⟨hkind, hsupp, rfl⟩, u, hkeys, _, hshapes, params, hparams, rfl⟩
    rw [Component.component_signature] at hparams
    exact ⟨types, params, htypes, hkind, hsupp, checkKeys_ok.mp ⟨u, hkeys⟩, hshapes, hparams, rfl⟩
  · rintro ⟨types, params, htypes, hkind, hsupp, hkeys, hshapes, hparams, rfl⟩
    obtain ⟨u, hkeys⟩ := checkKeys_ok.mpr hkeys
    rw [← c.component_signature types] at hparams
    exact ⟨types, htypes, _, ⟨hkind, hsupp, rfl⟩, u, hkeys, (), hshapes, params, hparams, rfl⟩

theorem namesComponent_of_parse_ok (hb : ctx.registry.builders = [])
    (h : (ctx.parse kind (.map entries) inherited).result = .ok d) :
    ∃ c, NamesComponent kind (.map entries) c := by
  simp only [Context.parse, Context.dispatch, Outcome.bind_eq, Outcome.bind_result_eq_ok,
    Outcome.result_lift] at h
  obtain ⟨types, -, name, hname, h⟩ := h
  cases hfind : Vocabulary.find? Component name with
  | some c => exact ⟨c, typeName_ok.mp ⟨name, hname, hfind⟩⟩
  | none =>
    simp only [hfind, Context.readCustom, Registry.builder?, hb, List.lookup_nil] at h
    cases h

section
variable (hread : (ctx.readFields c types (ctx.parts entries) c.reads
  (c.initialParams types)).result = .ok params)
include hread

theorem says_of_readFields {f : Field} (hf : f ∈ c.fields) {t : Tree}
    (ht : entries.lookup f.name = some t) (ha : f.shape.accepts t = true) :
    ∃ p, ctx.Says c types f t p ∧ params.lookup f.name = some p := by
  obtain ⟨parameter, hp, -⟩ := Option.map_eq_some_iff.mp (Component.shape_parameter? hf)
  have hm : f.name ∈ c.reads := by
    rw [c.reads_eq]
    exact List.mem_map_of_mem hf
  have hpart : (ctx.parts entries).lookup f.name = some (ctx.part t) := by
    rw [ctx.lookup_parts, ht]
    rfl
  obtain ⟨p, hr, hl⟩ := lookup_readFields_of_read hm hpart hp hread
  refine ⟨p, (readField_ok hf hp).mp ⟨ha, hr⟩, ?_⟩
  rw [hl, lookup_initialParams, hp]
  rfl

theorem initial_of_readFields {f : Field} (ht : entries.lookup f.name = none) :
    params.lookup f.name = (c.initialParams types).lookup f.name :=
  lookup_readFields_of_left_out (.inr (.inl (by rw [ctx.lookup_parts, ht]; rfl))) hread

end

theorem readFields_fields_ok :
    ((∀ f ∈ c.fields, ∀ t, entries.lookup f.name = some t → f.shape.accepts t = true) ∧
      ∃ params, (ctx.readFields c types (ctx.parts entries) c.reads
        (c.initialParams types)).result = .ok params) ↔
    ∀ f ∈ c.fields, ∀ t, entries.lookup f.name = some t → ∃ p, ctx.Says c types f t p := by
  constructor
  · rintro ⟨ha, params, hread⟩ f hf t ht
    obtain ⟨p, hs, -⟩ := says_of_readFields hread hf ht (ha f hf t ht)
    exact ⟨p, hs⟩
  · intro h
    have hp : ∀ f ∈ c.fields, ∀ t, entries.lookup f.name = some t →
        ∀ parameter, c.parameter? f.name = some parameter → f.shape.accepts t = true ∧
          ∃ p, (ctx.readField types parameter (ctx.part t)).result = .ok p := by
      intro f hf t ht parameter hp
      obtain ⟨p, hs⟩ := h f hf t ht
      obtain ⟨ha, hr⟩ := (readField_ok hf hp).mpr hs
      exact ⟨ha, p, hr⟩
    refine ⟨fun f hf t ht => ?_, readFields_ok.mpr fun name hn part parameter hpart hparam => ?_⟩
    · obtain ⟨parameter, hparam, -⟩ := Option.map_eq_some_iff.mp (Component.shape_parameter? hf)
      exact (hp f hf t ht parameter hparam).1
    · rw [c.reads_eq] at hn
      obtain ⟨f, hf, rfl⟩ := List.mem_map.mp hn
      rw [ctx.lookup_parts] at hpart
      obtain ⟨t, ht, rfl⟩ := Option.map_eq_some_iff.mp hpart
      exact (hp f hf t ht parameter hparam).2

theorem parse_component_isOk (hc : NamesComponent kind (.map entries) c) :
    (∃ d, (ctx.parse kind (.map entries) inherited).result = .ok d) ↔
      ∃ types, TypesInEffect (.map entries) inherited types ∧
        kind.admits c = true ∧ c.supports types = true ∧
        (ctx.strictness = .strict → ∀ entry ∈ entries, c.knows entry.1 = true) ∧
        (∀ f ∈ c.fields, f.required = true → (entries.lookup f.name).isSome = true) ∧
        ∀ f ∈ c.fields, ∀ t, entries.lookup f.name = some t → ∃ p, ctx.Says c types f t p := by
  simp only [parse_component_ok hc, ← readFields_fields_ok]
  constructor
  · rintro ⟨d, types, params, htypes, hkind, hsupp, hkeys, hshapes, hread, -⟩
    exact ⟨types, htypes, hkind, hsupp, hkeys, fun f hf => (hshapes f hf).1,
      fun f hf => (hshapes f hf).2, params, hread⟩
  · rintro ⟨types, htypes, hkind, hsupp, hkeys, hrequired, hshapes, params, hread⟩
    exact ⟨_, types, params, htypes, hkind, hsupp, hkeys,
      fun f hf => ⟨hrequired f hf, hshapes f hf⟩, hread, rfl⟩

end

end SolverConfig
