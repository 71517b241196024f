import SolverConfig.Proofs.Agreement
import SolverConfig.Proofs.Faults

/-!
# The first fault is reported

A parse fails with an error of the first kind of fault that a node has. Faults that are found
before any value is read depend on nothing below the node and on no registered object, only on
what the node shows at a glance.
-/

namespace SolverConfig

open Vocabulary (find?)

-- ---------------------------------------------------------------------------
-- Examination
-- ---------------------------------------------------------------------------

/-- What is left to be done with a node that has passed its checks: a parameter set is read from its
fields, or a custom builder makes of it what it will. -/
inductive Accepted (β : Type) where
  | component (s : Signature) (types : Instantiation)
  | builder (b : β) (types : Instantiation)

namespace Context

variable {β : Type} (ctx : Context β)

def examine (kind : Kind) (entries : Tree.Entries) (inherited : Instantiation) :
    Outcome (Accepted β) := do
  let types ← Instantiation.resolve (.map entries) inherited
  let name ← typeName kind (.map entries)
  match find? Component name with
  | none =>
    match ctx.registry.builder? name, kind with
    | none, _ => .ofExcept (.error (.unknownType TypeKey.type name))
    | some _, .component c =>
      .ofExcept (.error (.typeMismatch (.field TypeKey.type.text) c.name name))
    | some b, .family _ => return .builder b types
  | some c =>
    let s ← c.select kind types
    c.checkKeys ctx.strictness entries
    c.checkShapes entries c.fields
    return .component s types

def finish (entries : Tree.Entries) (parts : List (String × Part)) :
    Accepted β → Outcome Deferred
  | .component s types => do
    let initial := s.component.initialParams types
    let params ← ctx.readFields s.component types parts s.component.reads initial
    return .unbound s params
  | .builder b types => ctx.custom b ctx.registry (.map entries) types

theorem dispatch_eq_examine (kind : Kind) (entries : Tree.Entries) (parts : List (String × Part))
    (inherited : Instantiation) :
    ctx.dispatch kind entries parts inherited =
      (ctx.examine kind entries inherited).bind (ctx.finish entries parts) := by
  simp only [dispatch, examine, readComponent, readCustom, Outcome.bind_eq, Outcome.bind_assoc]
  congr
  funext types
  congr
  funext name
  cases find? Component name with
  | none =>
    dsimp only
    cases ctx.registry.builder? name with
    | none => rfl
    | some b =>
      cases kind with
      | component c => rfl
      | family f => exact (Outcome.ofExcept_ok_bind _ _).symm
  | some c =>
    simp only [Outcome.bind_assoc]
    congr

end Context

section
variable {β : Type} {ctx : Context β} {kind : Kind} {inherited : Instantiation}
  {entries : Tree.Entries}

theorem checks_other {s : String} (h : NamesOther (.map entries) s) (e : ConfigError) :
    First [LookupFault ctx.registry (.map entries), RequestFault ctx.registry kind (.map entries),
        InstanceFault kind inherited (.map entries), KeyFault ctx.strictness kind (.map entries),
        FieldFault kind (.map entries)] e ↔
      ctx.registry.builder? s = none ∧ .unknownType TypeKey.type s = e ∨
        ∃ c b, kind = .component c ∧ ctx.registry.builder? s = some b ∧
          .typeMismatch (.field TypeKey.type.text) c.name s = e := by
  have hno : ∀ c, ¬NamesComponent kind (.map entries) c := fun c => h.not_namesComponent
  have hinstance : ∀ e, ¬InstanceFault kind inherited (.map entries) e := by
    rintro _ ⟨hc, -, -, -⟩
    exact hno _ hc
  have hkey : ∀ e, ¬KeyFault ctx.strictness kind (.map entries) e := by
    rintro _ ⟨-, hc, -⟩
    exact hno _ hc
  have hfield : ∀ e, ¬FieldFault kind (.map entries) e := by
    rintro _ ⟨hc, -⟩
    exact hno _ hc
  simp only [First.cons, First.nil, hinstance, hkey, hfield, lookupFault_other h,
    requestFault_other h]
  cases ctx.registry.builder? s <;> simp

theorem examine_error {e : ConfigError} :
    (ctx.examine kind entries inherited).result = .error e ↔
      First (ctx.checks kind inherited (.map entries)) e := by
  rw [Context.checks, First.skip (by rintro _ ⟨⟨⟩⟩)]
  refine bind_first (o := .ofExcept _) resolve_error (fun types htypes => ?_) e
  refine bind_first_cons (o := .ofExcept _) (fun _ => typeName_error) fun name hname e => ?_
  cases hfind : find? Component name with
  | none =>
    rw [checks_other (typeName_eq_iff_namesOther.mp ⟨hname, hfind⟩)]
    cases ctx.registry.builder? name with
    | none => simp
    | some b => cases kind <;> simp
  | some c =>
    have hc : NamesComponent kind (.map entries) c := typeName_ok.mp ⟨name, hname, hfind⟩
    have hno : ∀ e, ¬LookupFault ctx.registry (.map entries) e := by
      rintro _ ⟨hother, -⟩
      exact hother.not_namesComponent hc
    rw [First.skip hno]
    refine bind_first (o := .ofExcept _) (select_error hc (resolve_ok.mp htypes)) (fun _ _ => ?_) e
    refine bind_first_cons (checkKeys_error hc) fun _ _ => ?_
    refine bind_first_cons (o := .ofExcept _) (checkShapes_error hc) fun _ _ e => ?_
    simp [First.nil]

theorem dispatch_error_of_examine {e : ConfigError}
    (h : (ctx.examine kind entries inherited).result = .error e) (parts : List (String × Part)) :
    (ctx.dispatch kind entries parts inherited).result = .error e := by
  rw [ctx.dispatch_eq_examine, Outcome.bind_result_eq_error]
  exact .inl h

theorem examine_ok {a : Accepted β} (h : (ctx.examine kind entries inherited).result = .ok a) :
    (∃ c types, a = .component (c.signature types) types ∧
      NamesComponent kind (.map entries) c ∧ TypesInEffect (.map entries) inherited types) ∨
    ∃ b types f s, a = .builder b types ∧ kind = .family f ∧ NamesOther (.map entries) s ∧
      ctx.registry.builder? s = some b ∧ TypesInEffect (.map entries) inherited types := by
  simp only [Context.examine, Outcome.bind_eq, Outcome.bind_result_eq_ok, Outcome.result_lift,
    resolve_ok] at h
  obtain ⟨types, htypes, name, hname, h⟩ := h
  cases hfind : find? Component name with
  | none =>
    have hother := typeName_eq_iff_namesOther.mp ⟨hname, hfind⟩
    rw [hfind] at h
    dsimp only at h
    split at h
    · cases h
    · cases h
    · next b f hb =>
      cases h
      exact .inr ⟨b, types, f, name, rfl, rfl, hother, hb, htypes⟩
  | some c =>
    simp only [hfind, Outcome.bind_result_eq_ok, Outcome.result_lift, Outcome.result_pure,
      select_ok] at h
    obtain ⟨s, ⟨-, -, rfl⟩, -, -, -, -, ⟨⟩⟩ := h
    exact .inl ⟨c, types, rfl, typeName_ok.mp ⟨name, hname, hfind⟩, htypes⟩

theorem finish_error {a : Accepted β} (h : (ctx.examine kind entries inherited).result = .ok a)
    (e : ConfigError) :
    (ctx.finish entries (ctx.parts entries) a).result = .error e ↔
      ctx.ValueFault kind inherited (.map entries) e := by
  rcases examine_ok h with
    ⟨c, types, rfl, hc, htypes⟩ | ⟨b, types, f, s, rfl, rfl, hother, hb, htypes⟩
  · rw [Context.finish, Component.component_signature, Outcome.bind_eq,
      Outcome.bind_result_eq_error, readFields_error hc htypes]
    simp
  · constructor
    · exact .builder rfl hother hb htypes
    · rintro (⟨hc, -, -⟩ | ⟨-, hother', hb', htypes', hfailed⟩)
      · exact absurd hc hother.not_namesComponent
      · cases hother.1.symm.trans hother'.1
        cases hb.symm.trans hb'
        obtain rfl := htypes.unique htypes'
        exact hfailed

theorem parse_of_not_map {node : Tree} (hm : node.isMap = false) :
    (ctx.parse kind node inherited).result = .error (node.mismatch (.node kind) "map") := by
  cases node with
  | map entries => cases hm
  | _ => rfl

theorem parse_first (kind : Kind) (node : Tree) (inherited : Instantiation) (e : ConfigError) :
    (ctx.parse kind node inherited).result = .error e ↔
      First (ctx.faults kind inherited node) e := by
  cases hm : node.isMap with
  | true =>
    obtain ⟨entries, rfl⟩ := Tree.exists_of_isMap hm
    rw [Context.parse, ctx.dispatch_eq_examine]
    refine bind_first (fun _ => examine_error) (fun a ha e => ?_) e
    rw [First.single, finish_error ha]
  | false =>
    have hfault : ∀ e, MapFault kind node e ↔ node.mismatch (.node kind) "map" = e := by
      intro e
      constructor
      · rintro ⟨-⟩
        rfl
      · rintro rfl
        exact .intro hm
    rw [parse_of_not_map hm, Context.faults, Context.checks, List.cons_append, First.cons, hfault]
    simp [hfault]

end

-- ---------------------------------------------------------------------------
-- Nodes that look alike
-- ---------------------------------------------------------------------------

/-- Two nodes of a component look alike without a look at their values: they have the same keys in
the same order and name the same types, and the trees under a field both have its shape or both do
not, and have the same description. -/
structure Component.LooksAlike (c : Component) (entries others : Tree.Entries) : Prop where
  keys : others.map Prod.fst = entries.map Prod.fst
  types : ∀ key : TypeKey, others.lookup key.text = entries.lookup key.text
  fields : ∀ f ∈ c.fields, Option.Rel
    (fun t u => f.shape.accepts u = f.shape.accepts t ∧ u.describe = t.describe)
    (entries.lookup f.name) (others.lookup f.name)

section
variable {β γ : Type} {ctx : Context β} {ctx' : Context γ} {kind : Kind}
  {inherited : Instantiation} {entries others : Tree.Entries} {c : Component}

theorem Component.LooksAlike.checkShapes (h : c.LooksAlike entries others) :
    c.checkShapes others c.fields = c.checkShapes entries c.fields := by
  refine (agree_eq.mp (Agree.imp (checkShapes_agree congruence_eq fun f hf => ?_) ?_)).symm
  · have hentry := h.fields f hf
    generalize entries.lookup f.name = entry, others.lookup f.name = other at hentry ⊢
    cases hentry with
    | none => exact .none
    | some hentry =>
      obtain ⟨haccepts, hdescribe⟩ := hentry
      refine .some ⟨haccepts.symm, fun _ => ?_⟩
      rw [Tree.mismatch, Tree.mismatch, hdescribe]
  · exact fun _ _ _ => rfl

theorem examine_component_error (hc : NamesComponent kind (.map entries) c) {e : ConfigError} :
    (ctx.examine kind entries inherited).result = .error e ↔
      Instantiation.resolve (.map entries) inherited = .error e ∨
      ∃ types, Instantiation.resolve (.map entries) inherited = .ok types ∧
        (c.select kind types = .error e ∨ (∃ s, c.select kind types = .ok s) ∧
          ((c.checkKeys ctx.strictness entries).result = .error e ∨
            (∃ u, (c.checkKeys ctx.strictness entries).result = .ok u) ∧
              c.checkShapes entries c.fields = .error e)) := by
  obtain ⟨name, hname, hfind⟩ := typeName_ok.mpr hc
  simp [Context.examine, Outcome.bind_eq, Outcome.bind_result_eq_error, hname, hfind]

theorem Component.LooksAlike.examine_error (h : c.LooksAlike entries others)
    (hs : ctx'.strictness = ctx.strictness) (hc : NamesComponent kind (.map entries) c)
    {e : ConfigError} :
    (ctx'.examine kind others inherited).result = .error e ↔
      (ctx.examine kind entries inherited).result = .error e := by
  have hfind : ∀ key : TypeKey,
      (Tree.map others).find? key.text = (Tree.map entries).find? key.text := h.types
  have hc' : NamesComponent kind (.map others) c := by
    unfold NamesComponent
    rw [hfind .type]
    exact hc
  have hresolve : Instantiation.resolve (.map others) inherited =
      Instantiation.resolve (.map entries) inherited := by
    simp only [Instantiation.resolve, resolveType, hfind]
  have hkeys : c.checkKeys ctx'.strictness others = c.checkKeys ctx.strictness entries := by
    unfold Component.checkKeys
    rw [hs, h.keys]
  rw [examine_component_error hc, examine_component_error hc', hresolve, hkeys,
    h.checkShapes]

end

/-- A parse reports the first fault of a node and no other, be it the root or nested under the types
that it inherits. A fault of a component that is found before any value is read is reported whatever
stands below the node, whatever its parts read as, and whatever is registered. -/
theorem parse_reports_first {β : Type} (ctx : Context β) (kind : Kind) (node : Tree)
    (inherited : Instantiation) :
    (∀ e, (ctx.parse kind node inherited).result = .error e ↔
      First (ctx.faults kind inherited node) e) ∧
    ∀ entries c e, node = .map entries → NamesComponent kind node c →
      First (ctx.checks kind inherited node) e →
      ∀ {γ : Type} (ctx' : Context γ) (others : Tree.Entries), ctx'.strictness = ctx.strictness →
        c.LooksAlike entries others →
          (ctx'.parse kind (.map others) inherited).result = .error e ∧
          ∀ parts, (ctx'.dispatch kind others parts inherited).result = .error e := by
  refine ⟨parse_first kind node inherited, ?_⟩
  rintro entries c e rfl hc hfirst γ ctx' others hs h
  have hexamine : (ctx'.examine kind others inherited).result = .error e :=
    (h.examine_error hs hc).mpr (examine_error.mpr hfirst)
  have hdispatch := dispatch_error_of_examine hexamine
  exact ⟨hdispatch _, hdispatch⟩

theorem parse_reports_first_cg :
    let node (criterion : Tree) : Tree.Entries :=
      [("Type", .text "solver::Cg"), ("IndexType", .text "void"), ("criteria", criterion),
        ("preconditioner", .text "direct"), ("verbose", .boolean true)]
    let nothing : Tree := .map [("Type", .text "Nothing")]
    let direct : Factory := .mk 0 (.reference 0) ⟨.ilu, some .float64, some .int32⟩ []
    let ctx' : Context Unit :=
      ⟨⟨[("direct", .factory direct)], [("Nothing", ())]⟩,
        fun _ _ _ _ => .ofExcept (.ok (.bound direct)), .strict⟩
    Component.cg.LooksAlike (node nothing) (node (.map [])) ∧
      First ((Context.bare .strict).checks (.family .linOp) ⟨.float64, .int32⟩
        (.map (node nothing))) (.unknownField Component.cg "verbose") ∧
      (ctx'.parse (.family .linOp) (.map (node (.map []))) ⟨.float64, .int32⟩).result =
        .error (.unknownField Component.cg "verbose") := by
  intro node nothing direct ctx'
  have halike : Component.cg.LooksAlike (node nothing) (node (.map [])) := by
    refine ⟨rfl, fun key => by cases key <;> rfl, fun f hf => ?_⟩
    simp only [Component.fields, Component.krylovFields, List.mem_cons, List.not_mem_nil,
      or_false] at hf
    rcases hf with rfl | rfl | rfl | rfl
    · exact .some ⟨rfl, rfl⟩
    · exact .some ⟨rfl, rfl⟩
    · exact .none
    · exact .none
  have hfirst : First ((Context.bare .strict).checks (.family .linOp) ⟨.float64, .int32⟩
      (.map (node nothing))) (.unknownField Component.cg "verbose") := examine_error.mp rfl
  have hc : NamesComponent (.family .linOp) (.map (node nothing)) .cg := ⟨_, rfl, by decide⟩
  obtain ⟨-, hindependent⟩ := parse_reports_first (.bare .strict) (.family .linOp)
    (.map (node nothing)) ⟨.float64, .int32⟩
  exact ⟨halike, hfirst, (hindependent _ _ _ rfl hc hfirst ctx' _ rfl halike).1⟩

end SolverConfig
