import SolverConfig.Proofs.Descent

/-!
# What is configured arrives

At every node of a component that is reached, each field of the component sets the parameter of its
name to what the node says there and leaves it at its initial value where the node says nothing. No
other key of the node matters to that parameter, save those that name the types.
-/

namespace SolverConfig

/-- The parameter of a field, given the tree that a node has there. -/
def Context.Sets {β : Type} (ctx : Context β) (c : Component) (types : Instantiation) (f : Field) :
    Option Tree → Param Deferred → Prop
  | some t, p => ctx.Says c types f t p
  | none, p => ∃ parameter, c.parameter? f.name = some parameter ∧ p = parameter.type.initial types

section
variable {β : Type} {ctx : Context β} {c : Component} {types : Instantiation}
  {entries others : Tree.Entries} {params params' : Params Deferred}

theorem sets_of_readFields (h : (ctx.readFields c types (ctx.parts entries) c.reads
      (c.initialParams types)).result = .ok params)
    (hshapes : ∀ f ∈ c.fields, ∀ t, entries.lookup f.name = some t → f.shape.accepts t = true)
    {f : Field} (hf : f ∈ c.fields) :
    ∃ p, params.lookup f.name = some p ∧ ctx.Sets c types f (entries.lookup f.name) p := by
  cases ht : entries.lookup f.name with
  | some t =>
    obtain ⟨p, hp, hl⟩ := says_of_readFields h hf ht (hshapes f hf t ht)
    exact ⟨p, hl, hp⟩
  | none =>
    obtain ⟨parameter, hp, -⟩ := Option.map_eq_some_iff.mp (Component.shape_parameter? hf)
    refine ⟨parameter.type.initial types, ?_, parameter, hp, rfl⟩
    rw [initial_of_readFields h ht, lookup_initialParams, hp]
    rfl

theorem lookup_readFields_congr {names : List String} {start : Params Deferred} {name : String}
    (h : (ctx.readFields c types (ctx.parts entries) names start).result = .ok params)
    (h' : (ctx.readFields c types (ctx.parts others) names start).result = .ok params')
    (hsame : others.lookup name = entries.lookup name) :
    params'.lookup name = params.lookup name := by
  have hparts : (ctx.parts others).lookup name = (ctx.parts entries).lookup name := by
    rw [ctx.lookup_parts, ctx.lookup_parts, hsame]
  by_cases hn : name ∉ names ∨ (ctx.parts entries).lookup name = none ∨ c.parameter? name = none
  · -- Neither set is touched under this name.
    rw [lookup_readFields_of_left_out hn h]
    rw [← hparts] at hn
    exact lookup_readFields_of_left_out hn h'
  · simp only [not_or, not_not, ← ne_eq, Option.ne_none_iff_exists'] at hn
    obtain ⟨hn, ⟨part, hpart⟩, parameter, hp⟩ := hn
    obtain ⟨p, hr, hl⟩ := lookup_readFields_of_read hn hpart hp h
    obtain ⟨p', hr', hl'⟩ := lookup_readFields_of_read hn (hparts.trans hpart) hp h'
    cases hr.symm.trans hr'
    rw [hl, hl']

end

theorem typesInEffect_congr {node other : Tree} {inherited types : Instantiation}
    (hsame : ∀ key : TypeKey, key ≠ .type → other.find? key.text = node.find? key.text) :
    TypesInEffect other inherited types ↔ TypesInEffect node inherited types := by
  unfold TypesInEffect InEffect
  rw [hsame .valueType (by decide), hsame .indexType (by decide)]

/-- The builder of every node of a component that is reached has the parameters that the node says,
and each of them is the same for every node that is the same under its name and in its types. -/
theorem parse_reached_sets {β : Type} (ctx : Context β) {kind : Kind} {root : Tree}
    {inherited : Instantiation} {d : Deferred}
    (h : (ctx.parse kind root inherited).result = .ok d)
    {path : List (String × Nat)} {here : Kind} {node : Tree} {above : List Tree} {c : Component}
    (hr : Descends kind root path here node above) (hc : NamesComponent here node c) :
    ∃ around types params, NearestTypes above inherited around ∧ TypesInEffect node around types ∧
      d.at? path = some (.unbound (c.signature types) params) ∧
      (∀ f ∈ c.fields, ∃ p, params.lookup f.name = some p ∧
        ctx.Sets c types f (node.find? f.name) p) ∧
      ∀ other d', NamesComponent here other c → (ctx.parse here other around).result = .ok d' →
        (∀ key : TypeKey, key ≠ .type → other.find? key.text = node.find? key.text) →
        ∀ name, other.find? name = node.find? name →
          d'.params.lookup name = params.lookup name := by
  obtain ⟨around, nested, haround, hnested, hat⟩ := parse_reached_ok h hr
  obtain ⟨types, params, htypes, -, rfl, hshapes, entries, rfl, hread⟩ :=
    parse_ok_unbound hnested hc
  refine ⟨around, types, params, haround, htypes, hat, fun f => sets_of_readFields hread hshapes,
    fun other d' hc' hother hkeys name hsame => ?_⟩
  obtain ⟨types', params', htypes', -, rfl, -, others, rfl, hread'⟩ := parse_ok_unbound hother hc'
  obtain rfl : types' = types := ((typesInEffect_congr hkeys).mp htypes').unique htypes
  exact lookup_readFields_congr hread hread' hsame

theorem parse_reached_sets_time :
    let node : Tree := .map [("Type", .text "Time"), ("comment", .empty)]
    let root : Tree := .map [("Type", .text "Combined"), ("criteria", .array
      [.map [("Type", .text "stop::Iteration"), ("max_iters", .integer 5)], node])]
    ∃ d types params,
      ((Context.bare .lenient).parse (.family .criterion) root ⟨.float64, .int32⟩).result = .ok d ∧
      d.at? [("criteria", 1)] = some (.unbound (Component.time.signature types) params) ∧
      ∀ f ∈ Component.time.fields, ∃ p, params.lookup f.name = some p ∧
        (Context.bare .lenient).Sets .time types f (node.find? f.name) p := by
  intro node root
  have hroot : NamesComponent (.family .criterion) root .combined := ⟨_, rfl, by decide⟩
  have hnode : NamesComponent (.family .criterion) node .time := ⟨_, rfl, by decide⟩
  have hcriteria : Field.criteria ∈ Component.combined.fields := List.mem_singleton.mpr rfl
  have hreached := Descends.field .root hroot hcriteria (.inr rfl) rfl
    (rfl : Tree.objectAt? _ 1 = some node) rfl
  have hparsed :
      ((Context.bare .lenient).parse (.family .criterion) root ⟨.float64, .int32⟩).result = .ok _ :=
    rfl
  obtain ⟨_, types, params, -, -, hat, hsets, -⟩ := parse_reached_sets _ hparsed hreached hnode
  exact ⟨_, types, params, hparsed, hat, hsets⟩

end SolverConfig
