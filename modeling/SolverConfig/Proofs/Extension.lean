import SolverConfig.Proofs.Reading
import SolverConfig.Proofs.Trees

/-!
# Larger registries

A registry that holds more under further names makes no difference to a parse, except that a name
that was missing may be found. Names of components are never looked up in it.
-/

namespace SolverConfig

namespace Registry

variable {β : Type}

structure Extends (r r' : Registry β) : Prop where
  object : ∀ name o, r.objects.lookup name = some o → r'.objects.lookup name = some o
  builder : ∀ name b, r.builder? name = some b → r'.builder? name = some b

/-- The errors of looking up a name that only the second registry holds. -/
inductive Missed (r r' : Registry β) : ConfigError → Prop
  | object {name : String} {o : Object} (missing : r.objects.lookup name = none)
      (held : r'.objects.lookup name = some o) : Missed r r' (.notFound .object name)
  | builder {name : String} {b : β} (unknown : Vocabulary.find? Component name = none)
      (missing : r.builder? name = none) (held : r'.builder? name = some b) :
      Missed r r' (.unknownType TypeKey.type name)

end Registry

/-- A result is kept if it is the same, unless a missed name was its error. -/
def Kept {α : Type} (missed : ConfigError → Prop) (x y : Except ConfigError α) : Prop :=
  x = y ∨ ∃ e, x = .error e ∧ missed e

namespace Kept

variable {α α' : Type} {missed : ConfigError → Prop}

theorem refl (x : Except ConfigError α) : Kept missed x x := .inl rfl

theorem map {x y : Except ConfigError α} (h : Kept missed x y) (f : α → α') :
    Kept missed (x.map f) (y.map f) := by
  rcases h with rfl | ⟨e, rfl, he⟩
  · exact .refl _
  · exact .inr ⟨e, rfl, he⟩

theorem bind {o p : Outcome α} {f g : α → Outcome α'} (h : Kept missed o.result p.result)
    (hfg : ∀ a, Kept missed (f a).result (g a).result) :
    Kept missed (o.bind f).result (p.bind g).result := by
  obtain ⟨w, x⟩ := o
  obtain ⟨w', y⟩ := p
  rcases h with h | ⟨e, h, he⟩
  · obtain rfl : x = y := h
    cases x with
    | ok a => exact hfg a
    | error e => exact .refl _
  · obtain rfl : x = .error e := h
    exact .inr ⟨e, rfl, he⟩

theorem collect {os ps : List (Outcome α)}
    (h : List.Forall₂ (fun o p => Kept missed o.result p.result) os ps) :
    Kept missed (collect os).result (collect ps).result := by
  induction h with
  | nil => exact .refl _
  | cons h _ ih => exact h.bind fun a => ih.bind fun as => .refl _

end Kept

-- ---------------------------------------------------------------------------
-- Look-ups
-- ---------------------------------------------------------------------------

section
variable {β : Type} {r r' : Registry β} (h : r.Extends r')
include h

theorem object_kept (name : String) : Kept (r.Missed r') (r.object name) (r'.object name) := by
  unfold Registry.object
  cases ho : r.objects.lookup name with
  | some o =>
    rw [h.object name o ho]
    exact .refl _
  | none =>
    cases ho' : r'.objects.lookup name with
    | none => exact .refl _
    | some o => exact .inr ⟨_, rfl, .object ho ho'⟩

theorem operator_kept (name : String) :
    Kept (r.Missed r') (r.operator name) (r'.operator name) := by
  unfold Registry.operator
  rcases object_kept h name with ho | ⟨e, ho, he⟩
  · rw [ho]
    exact .refl _
  · rw [ho]
    exact .inr ⟨e, rfl, he⟩

theorem factory_kept (f : Family) (name : String) :
    Kept (r.Missed r') (r.factory f name) (r'.factory f name) := by
  unfold Registry.factory
  rcases object_kept h name with ho | ⟨e, ho, he⟩
  · rw [ho]
    exact .refl _
  · rw [ho]
    exact .inr ⟨e, rfl, he⟩

end

-- ---------------------------------------------------------------------------
-- Nodes
-- ---------------------------------------------------------------------------

namespace Context

variable {β : Type} {ctx : Context β} {r' : Registry β}

def withRegistry (ctx : Context β) (r : Registry β) : Context β := { ctx with registry := r }

def CustomKept (ctx : Context β) (r' : Registry β) : Prop :=
  ∀ name b, ctx.registry.builder? name = some b → ∀ node types,
    (ctx.custom b ctx.registry node types).result = (ctx.custom b r' node types).result

/-- A tree is read alike with either registry, as one object or as several. -/
def KeptIn (ctx : Context β) (r' : Registry β) (t : Tree) : Prop :=
  ∀ f types,
    Kept (ctx.registry.Missed r') ((ctx.part t).object f types).result
        (((ctx.withRegistry r').part t).object f types).result ∧
      Kept (ctx.registry.Missed r') ((ctx.part t).objects f types).result
        (((ctx.withRegistry r').part t).objects f types).result

variable (h : ctx.registry.Extends r')
include h

theorem readField_kept {t : Tree} (ht : ctx.KeptIn r' t) (types : Instantiation)
    (parameter : Parameter) :
    Kept (ctx.registry.Missed r') (ctx.readField types parameter (ctx.part t)).result
      ((ctx.withRegistry r').readField types parameter
        ((ctx.withRegistry r').part t)).result := by
  obtain ⟨name, type⟩ := parameter
  cases type with
  | leaf q _ | optionalLeaf q =>
    simp only [readField, tree_part]
    exact .refl _
  | factory f => exact (ht f types).1.bind fun d => .refl _
  | factories f => exact (ht f types).2.bind fun ds => .refl _
  | operator =>
    simp only [readField, tree_part]
    cases t.asText? with
    | none => exact .refl _
    | some s => exact (operator_kept h s).map _

theorem readFields_kept {entries : Tree.Entries}
    (hentries : ∀ entry ∈ entries, ctx.KeptIn r' entry.2) (c : Component) (types : Instantiation)
    (names : List String) (params : Params Deferred) :
    Kept (ctx.registry.Missed r')
      (ctx.readFields c types (ctx.parts entries) names params).result
      ((ctx.withRegistry r').readFields c types ((ctx.withRegistry r').parts entries) names
        params).result := by
  induction names generalizing params with
  | nil => exact .refl _
  | cons name rest ih =>
    unfold readFields
    rw [lookup_parts, lookup_parts]
    cases ht : entries.lookup name with
    | none => exact ih params
    | some t =>
      cases c.parameter? name with
      | none => exact ih params
      | some parameter =>
        have hread := readField_kept h (hentries _ (mem_of_lookup ht)) types parameter
        exact hread.bind fun p => ih _

variable (hcustom : ctx.CustomKept r')
include hcustom

omit h in
theorem readCustom_kept (h : ctx.registry.Extends r') {name : String}
    (hname : Vocabulary.find? Component name = none) (kind : Kind) (node : Tree)
    (types : Instantiation) :
    Kept (ctx.registry.Missed r') (ctx.readCustom kind name node types).result
      ((ctx.withRegistry r').readCustom kind name node types).result := by
  unfold readCustom
  cases hb : ctx.registry.builder? name with
  | some b =>
    have hb' : (ctx.withRegistry r').registry.builder? name = some b := h.builder name b hb
    rw [hb']
    cases kind with
    | component c => exact .refl _
    | family f => exact .inl (hcustom name b hb node types)
  | none =>
    cases hb' : (ctx.withRegistry r').registry.builder? name with
    | none => exact .refl _
    | some b => exact .inr ⟨_, rfl, .builder hname hb hb'⟩

theorem dispatch_kept {entries : Tree.Entries} (hentries : ∀ entry ∈ entries, ctx.KeptIn r' entry.2)
    (kind : Kind) (inherited : Instantiation) :
    Kept (ctx.registry.Missed r')
      (ctx.dispatch kind entries (ctx.parts entries) inherited).result
      ((ctx.withRegistry r').dispatch kind entries ((ctx.withRegistry r').parts entries)
        inherited).result := by
  unfold dispatch
  refine Kept.bind (.refl _) fun types => Kept.bind (.refl _) fun name => ?_
  cases hname : Vocabulary.find? Component name with
  | none => exact readCustom_kept hcustom h hname kind _ types
  | some c =>
    refine Kept.bind (.refl _) fun s => Kept.bind (.refl _) fun _ => Kept.bind (.refl _) fun _ => ?_
    exact (readFields_kept h hentries s.component types s.component.reads _).bind fun _ => .refl _

-- ---------------------------------------------------------------------------
-- Trees
-- ---------------------------------------------------------------------------

omit h hcustom in
theorem keptIn_of_not_array {t : Tree} (ha : t.isArray = false)
    (hobject : ∀ f types, Kept (ctx.registry.Missed r') ((ctx.part t).object f types).result
      (((ctx.withRegistry r').part t).object f types).result) : ctx.KeptIn r' t := by
  intro f types
  refine ⟨hobject f types, ?_⟩
  rw [objects_part_of_not_array ha, objects_part_of_not_array ha]
  exact (hobject f types).bind fun d => .refl _

omit hcustom in
theorem keptIn_leaf {t : Tree} (ha : t.isArray = false) (hm : t.isMap = false) :
    ctx.KeptIn r' t := by
  refine keptIn_of_not_array ha fun f types => ?_
  cases t with
  | text s => exact (factory_kept h f s).map _
  | array items => cases ha
  | map entries => cases hm
  | _ => exact .refl _

omit h hcustom in
theorem keptIn_array {items : List Tree} (hitems : ∀ item ∈ items, ctx.KeptIn r' item) :
    ctx.KeptIn r' (.array items) := by
  refine fun f types => ⟨.refl _, ?_⟩
  change Kept _ (collect ((ctx.elements items).map fun read => read f types)).result
    (collect (((ctx.withRegistry r').elements items).map fun read => read f types)).result
  simp only [elements_eq_map, List.map_map]
  refine Kept.collect ?_
  rw [List.forall₂_map_left_iff, List.forall₂_map_right_iff]
  exact List.forall₂_same.mpr fun item hi => (hitems item hi f types).1

theorem keptIn (t : Tree) : ctx.KeptIn r' t := by
  induction t using Tree.induction with
  | leaf t ha hm => exact keptIn_leaf h ha hm
  | array items ih => exact keptIn_array ih
  | map entries ih =>
    refine keptIn_of_not_array rfl fun f types => ?_
    exact (dispatch_kept h hcustom ih (.family f) types).bind fun d => .refl _

theorem parse_kept (kind : Kind) (tree : Tree) (inherited : Instantiation) :
    Kept (ctx.registry.Missed r') (ctx.parse kind tree inherited).result
      ((ctx.withRegistry r').parse kind tree inherited).result := by
  cases tree with
  | map entries => exact dispatch_kept h hcustom (fun entry _ => keptIn h hcustom entry.2) kind _
  | _ => exact .refl _

end Context

theorem not_missed_emplaceBuilder {β : Type} {r r' : Registry β} {c : Component} {name : String}
    {b : β} (hname : Vocabulary.names name c = true) (h : r.emplaceBuilder name b = .ok r')
    (e : ConfigError) : ¬r.Missed r' e := by
  rw [Registry.emplaceBuilder] at h
  split at h
  · cases h
  · obtain rfl := Except.ok.inj h
    intro hmissed
    cases hmissed with
    | object hmissing hheld =>
      rw [hmissing] at hheld
      cases hheld
    | @builder other b' hunknown hmissing hheld =>
      rcases lookup_concat.mp hheld with hheld | ⟨-, rfl, -⟩
      · rw [Registry.builder?, hheld] at hmissing
        cases hmissing
      · rw [LawfulVocabulary.find?_eq_some_iff.mpr hname] at hunknown
        cases hunknown

/-- A parse that succeeds gives the same with a larger registry, and one that fails fails in the
same way unless its error was a name that only the larger registry holds. A builder under a name of
a component changes nothing. -/
theorem parse_extended {β : Type} (ctx : Context β) {r' : Registry β}
    (h : ctx.registry.Extends r') (hcustom : ctx.CustomKept r') (kind : Kind) (tree : Tree)
    (inherited : Instantiation) :
    (∀ d, (ctx.parse kind tree inherited).result = .ok d →
        ((ctx.withRegistry r').parse kind tree inherited).result = .ok d) ∧
      (∀ e, (ctx.parse kind tree inherited).result = .error e →
        ((ctx.withRegistry r').parse kind tree inherited).result = .error e ∨
          ctx.registry.Missed r' e) ∧
      ∀ c name b, Vocabulary.names name (c : Component) = true →
        ctx.registry.emplaceBuilder name b = .ok r' →
          ((ctx.withRegistry r').parse kind tree inherited).result =
            (ctx.parse kind tree inherited).result := by
  rcases Context.parse_kept h hcustom kind tree inherited with hsame | ⟨e, he, hmissed⟩
  · rw [← hsame]
    exact ⟨fun d hd => hd, fun e he => .inl he, fun _ _ _ _ _ => rfl⟩
  · rw [he]
    refine ⟨nofun, fun e' he' => ?_, fun c name b hname hb => ?_⟩
    · obtain rfl := Except.error.inj he'
      exact .inr hmissed
    · exact absurd hmissed (not_missed_emplaceBuilder hname hb e)

theorem parse_extended_criterion :
    let direct : Deferred := .bound (.mk 0 (.reference 0) ⟨.ilu, some .float64, some .int32⟩ [])
    let other : Factory := .mk 1 (.reference 0) ⟨.time, none, none⟩ []
    let ctx : Context Unit :=
      ⟨⟨[], [("custom::Direct", ())]⟩, fun _ _ _ _ => .ofExcept (.ok direct), .strict⟩
    let r' : Registry Unit := ⟨[("custom::Direct", .factory other)],
      [("stop::Iteration", ()), ("custom::Direct", ())]⟩
    let tree : Tree := .map [("Type", .text "solver::Cg"),
      ("criteria", .map [("Type", .text "stop::Iteration"), ("max_iters", .integer 5)]),
      ("preconditioner", .map [("Type", .text "custom::Direct")])]
    ctx.registry.Extends r' ∧ ctx.CustomKept r' ∧
      ∃ d, (ctx.parse (.family .linOp) tree ⟨.float64, .int32⟩).result = .ok d ∧
        ((ctx.withRegistry r').parse (.family .linOp) tree ⟨.float64, .int32⟩).result = .ok d := by
  intro direct other ctx r' tree
  have hextends : ctx.registry.Extends r' := by
    refine ⟨nofun, fun name b hb => ?_⟩
    obtain ⟨rfl, rfl⟩ := Prod.mk.inj (List.mem_singleton.mp (mem_of_lookup hb))
    decide
  have hcustom : ctx.CustomKept r' := fun _ _ _ _ _ => rfl
  refine ⟨hextends, hcustom, _, rfl, ?_⟩
  exact (parse_extended ctx hextends hcustom (.family .linOp) tree ⟨.float64, .int32⟩).1 _ rfl

end SolverConfig
