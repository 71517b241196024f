import SolverConfig.Proofs.Detection

/-!
# Concrete kinds

To ask for a component is to ask for a member of its family and to fill in the `Type` that names the
component: of a node that leaves its `Type` out, and of one that names the component itself, the
parse is the same. A node that names anything else is refused.
-/

namespace SolverConfig

open Vocabulary (names find?)

-- ---------------------------------------------------------------------------
-- The `Type` of a node
-- ---------------------------------------------------------------------------

section
variable {before after : Tree.Entries} {t : Tree} {c : Component}

theorem checkKeys_insert {strictness : Strictness} {key : String} (h : c.knows key = true) :
    c.checkKeys strictness (before ++ (key, t) :: after) =
      c.checkKeys strictness (before ++ after) := by
  simp [Component.checkKeys, h]

theorem name_ne_type {f : Field} (hf : f ∈ c.fields) : f.name ≠ TypeKey.type.text := by
  have h : ∀ f ∈ c.fields, f.name ≠ TypeKey.type.text := by cases c <;> decide
  exact h f hf

theorem resolve_insert (inherited : Instantiation) :
    Instantiation.resolve (.map (before ++ (TypeKey.type.text, t) :: after)) inherited =
      Instantiation.resolve (.map (before ++ after)) inherited := by
  have hvalue : (before ++ (TypeKey.type.text, t) :: after).lookup TypeKey.valueType.text =
    (before ++ after).lookup TypeKey.valueType.text := lookup_insert_of_ne (by decide)
  have hindex : (before ++ (TypeKey.type.text, t) :: after).lookup TypeKey.indexType.text =
    (before ++ after).lookup TypeKey.indexType.text := lookup_insert_of_ne (by decide)
  simp only [Instantiation.resolve, resolveType, Tree.find?, Tree.asMap?, Option.bind_some, hvalue,
    hindex]

end

section
variable {β : Type} {ctx : Context β} {c : Component} {types inherited : Instantiation}
  {entries others before after : Tree.Entries} {parts parts' : List (String × Part)}

theorem checkShapes_congr {fields : List Field}
    (h : ∀ f ∈ fields, others.lookup f.name = entries.lookup f.name) :
    c.checkShapes others fields = c.checkShapes entries fields := by
  induction fields with
  | nil => rfl
  | cons f rest ih =>
    rw [List.forall_mem_cons] at h
    obtain ⟨hf, hrest⟩ := h
    rw [Component.checkShapes, Component.checkShapes, hf, ih hrest]

theorem readFields_congr {names : List String} {params : Params Deferred}
    (h : ∀ name ∈ names, parts'.lookup name = parts.lookup name) :
    ctx.readFields c types parts' names params = ctx.readFields c types parts names params := by
  induction names generalizing params with
  | nil => rfl
  | cons name rest ih =>
    rw [List.forall_mem_cons] at h
    obtain ⟨hname, hrest⟩ := h
    simp only [Context.readFields, hname, ih hrest]

theorem readComponent_insert {t : Tree} {s : Signature} :
    ctx.readComponent c s types (before ++ (TypeKey.type.text, t) :: after)
        (ctx.parts (before ++ (TypeKey.type.text, t) :: after)) =
      ctx.readComponent c s types (before ++ after) (ctx.parts (before ++ after)) := by
  have hlookup (c : Component) : ∀ f ∈ c.fields,
      (before ++ (TypeKey.type.text, t) :: after).lookup f.name =
        (before ++ after).lookup f.name := fun f hf => lookup_insert_of_ne (name_ne_type hf)
  have hparts : ∀ name ∈ s.component.reads,
      (ctx.parts (before ++ (TypeKey.type.text, t) :: after)).lookup name =
        (ctx.parts (before ++ after)).lookup name := by
    rw [Component.reads_eq]
    intro name hname
    obtain ⟨f, hf, rfl⟩ := List.mem_map.mp hname
    rw [ctx.lookup_parts, ctx.lookup_parts, hlookup _ f hf]
  simp only [Context.readComponent, checkKeys_insert (knows_ok.mpr (.inl ⟨.type, rfl⟩)),
    checkShapes_congr (hlookup c), readFields_congr hparts]

-- ---------------------------------------------------------------------------
-- The kind of a node
-- ---------------------------------------------------------------------------

/-- For a node that names a component, a kind matters only in whether it admits the component. -/
theorem dispatch_of_namesComponent {kind : Kind} (hc : NamesComponent kind (.map entries) c)
    (hk : kind.admits c = true) :
    ctx.dispatch kind entries parts inherited =
      (Outcome.ofExcept (Instantiation.resolve (.map entries) inherited)).bind fun types =>
        (Outcome.ofExcept (c.parameterSet types)).bind fun s =>
          ctx.readComponent c s types entries parts := by
  obtain ⟨name, hname, hfind⟩ := typeName_ok.mpr hc
  have hselect : ∀ types, c.select kind types = c.parameterSet types := fun types => if_pos hk
  simp only [Context.dispatch, Outcome.bind_eq, hname]
  refine congrArg (Outcome.bind _) (funext fun types => ?_)
  refine (Outcome.ofExcept_ok_bind name _).trans ?_
  simp only [hfind, hselect]
  rfl

theorem parse_of_names {s : String} (ht : entries.lookup TypeKey.type.text = some (.text s))
    (hs : names s c = true) :
    ctx.parse (.component c) (.map entries) inherited =
      ctx.parse (.family c.family) (.map entries) inherited := by
  have hc : ∀ kind, NamesComponent kind (.map entries) c := fun _ => .of_text ht hs
  rw [Context.parse, Context.parse, dispatch_of_namesComponent (hc _) (admits_ok.mpr (.inr rfl)),
    dispatch_of_namesComponent (hc _) (admits_ok.mpr (.inl rfl))]

theorem parse_of_absent (ht : (before ++ after).lookup TypeKey.type.text = none) :
    ctx.parse (.component c) (.map (before ++ after)) inherited =
      ctx.parse (.family c.family)
        (.map (before ++ (TypeKey.type.text, .text c.name) :: after)) inherited := by
  have hc : NamesComponent (.component c) (.map (before ++ after)) c := .of_absent ht
  have hfilled : NamesComponent (.family c.family)
      (.map (before ++ (TypeKey.type.text, .text c.name) :: after)) c :=
    .of_text (lookup_insert_self ht) (Vocabulary.names_name c)
  rw [Context.parse, Context.parse, dispatch_of_namesComponent hc (admits_ok.mpr (.inr rfl)),
    dispatch_of_namesComponent hfilled (admits_ok.mpr (.inl rfl)), resolve_insert]
  simp only [readComponent_insert]

theorem fault_of_other (r : Registry β) {s : String}
    (ht : entries.lookup TypeKey.type.text = some (.text s)) (hs : names s c = false) :
    ∃ e, RequestFault r (.component c) (.map entries) e ∨ LookupFault r (.map entries) e := by
  cases hother : find? Component s with
  | some other =>
    have hnames : names s other = true := Vocabulary.names_of_find? hother
    have hc : NamesComponent (.component c) (.map entries) other := .of_text ht hnames
    have hne : Kind.component c ≠ .component other := by
      rintro ⟨⟩
      simp [hs] at hnames
    exact ⟨_, .inl (.component hc nofun hne)⟩
  | none =>
    have hnone : NamesOther (.map entries) s :=
      ⟨ht, LawfulVocabulary.find?_eq_none_iff.mp hother⟩
    cases hb : r.builder? s with
    | some b => exact ⟨_, .inl (.builder rfl hnone hb)⟩
    | none => exact ⟨_, .inr (.intro hnone hb)⟩

theorem parse_error_of_other {s : String}
    (ht : entries.lookup TypeKey.type.text = some (.text s)) (hs : names s c = false) :
    ∃ e, (ctx.parse (.component c) (.map entries) inherited).result = .error e := by
  simp only [parse_first]
  obtain ⟨e, hfault | hfault⟩ := fault_of_other ctx.registry ht hs
  · exact First.exists_of_mem (by simp [Context.faults, Context.checks]) hfault
  · exact First.exists_of_mem (by simp [Context.faults, Context.checks]) hfault

end

/-- To ask for a component is to ask for its family with the `Type` filled in, be it that the node
leaves its `Type` out or names the component there itself; with any other name there, the node is
refused. -/
theorem parse_concrete {β : Type} (ctx : Context β) (c : Component) (inherited : Instantiation) :
    (∀ before after, (before ++ after).lookup TypeKey.type.text = none →
      ctx.parse (.component c) (.map (before ++ after)) inherited =
        ctx.parse (.family c.family)
          (.map (before ++ (TypeKey.type.text, .text c.name) :: after)) inherited) ∧
    (∀ entries s, entries.lookup TypeKey.type.text = some (.text s) → names s c = true →
      ctx.parse (.component c) (.map entries) inherited =
        ctx.parse (.family c.family) (.map entries) inherited) ∧
    ∀ entries s, entries.lookup TypeKey.type.text = some (.text s) → names s c = false →
      ∃ e, (ctx.parse (.component c) (.map entries) inherited).result = .error e :=
  ⟨fun _ _ => parse_of_absent, fun _ _ => parse_of_names, fun _ _ => parse_error_of_other⟩

theorem parse_concrete_iteration :
    let time : Deferred :=
      .unbound ⟨.time, none, none⟩ (Component.time.initialParams ⟨.float64, .int32⟩)
    let ctx : Context Unit := ⟨⟨[], [("Own", ())]⟩, fun _ _ _ _ => pure time, .lenient⟩
    let limit : String × Tree := ("max_iters", .integer 5)
    let comment : String × Tree := ("comment", .empty)
    let typed (s : String) : Tree := .map [limit, ("Type", .text s), comment]
    let here : Instantiation := ⟨.float64, .int32⟩
    ctx.parse (.component .iteration) (.map [limit, comment]) here =
        ctx.parse (.family .criterion) (typed "Iteration") here ∧
      ctx.parse (.component .iteration) (typed "stop::Iteration") here =
        ctx.parse (.family .criterion) (typed "stop::Iteration") here ∧
      (∃ d, (ctx.parse (.family .criterion) (typed "Own") here).result = .ok d) ∧
      ∃ e, (ctx.parse (.component .iteration) (typed "Own") here).result = .error e := by
  intro time ctx limit comment typed here
  obtain ⟨habsent, hnamed, hother⟩ := parse_concrete ctx .iteration here
  exact ⟨habsent [limit] [comment] rfl, hnamed _ "stop::Iteration" rfl (by decide), ⟨_, rfl⟩,
    hother _ "Own" rfl (by decide)⟩

end SolverConfig
