import Mathlib.Data.List.Forall2
import SolverConfig.Proofs.Reading

/-!
# Parses that agree

Two results agree if they are related values or related errors. Two parses of nodes agree if their
stages do, one after another; what they are of, and in which contexts they are made, does not matter
besides that.
-/

namespace SolverConfig

inductive Agree {α γ : Type} (E : ConfigError → ConfigError → Prop) (R : α → γ → Prop) :
    Except ConfigError α → Except ConfigError γ → Prop
  | ok {a : α} {b : γ} (h : R a b) : Agree E R (.ok a) (.ok b)
  | error {e e' : ConfigError} (h : E e e') : Agree E R (.error e) (.error e')

theorem agree_eq {α : Type} {x y : Except ConfigError α} : Agree (· = ·) (· = ·) x y ↔ x = y := by
  constructor
  · rintro (h | h) <;> rw [h]
  · rintro rfl
    cases x with
    | ok a => exact .ok rfl
    | error e => exact .error rfl

namespace Agree

variable {α γ α' γ' : Type} {E : ConfigError → ConfigError → Prop} {R : α → γ → Prop}
  {S : α' → γ' → Prop}

theorem refl {R : α → α → Prop} {x : Except ConfigError α} (hE : ∀ e, E e e)
    (hR : ∀ a, x = .ok a → R a a) : Agree E R x x := by
  cases x with
  | ok a => exact .ok (hR a rfl)
  | error e => exact .error (hE e)

theorem imp {x : Except ConfigError α} {y : Except ConfigError γ} {S : α → γ → Prop}
    (h : Agree E R x y) (hS : ∀ a b, R a b → S a b) : Agree E S x y := by
  cases h with
  | ok h => exact .ok (hS _ _ h)
  | error h => exact .error h

theorem map {x : Except ConfigError α} {y : Except ConfigError γ} {f : α → α'} {g : γ → γ'}
    (h : Agree E R x y) (hS : ∀ a b, R a b → S (f a) (g b)) :
    Agree E S (x.map f) (y.map g) := by
  cases h with
  | ok h => exact .ok (hS _ _ h)
  | error h => exact .error h

theorem mapError {x : Except ConfigError α} {y : Except ConfigError γ}
    {f : ConfigError → ConfigError} (h : Agree E R x y) (hE : ∀ e e', E e e' → E (f e) (f e')) :
    Agree E R (x.mapError f) (y.mapError f) := by
  cases h with
  | ok h => exact .ok h
  | error h => exact .error (hE _ _ h)

theorem bind {o : Outcome α} {p : Outcome γ} {f : α → Outcome α'} {g : γ → Outcome γ'}
    (h : Agree E R o.result p.result)
    (hfg : ∀ a b, o.result = .ok a → R a b → Agree E S (f a).result (g b).result) :
    Agree E S (o.bind f).result (p.bind g).result := by
  obtain ⟨w, x⟩ := o
  obtain ⟨w', y⟩ := p
  cases h with
  | ok h => exact hfg _ _ rfl h
  | error h => exact .error h

theorem mapM {as : List α'} {bs : List γ'} {f : α' → Except ConfigError α}
    {g : γ' → Except ConfigError γ} (h : List.Forall₂ (fun a b => Agree E R (f a) (g b)) as bs) :
    Agree E (List.Forall₂ R) (as.mapM f) (bs.mapM g) := by
  induction h with
  | nil => exact .ok .nil
  | @cons a b as bs hab _ ih =>
    rw [List.mapM_cons, List.mapM_cons]
    generalize f a = x, g b = y at hab
    generalize as.mapM f = xs, bs.mapM g = ys at ih
    cases hab with
    | error he => exact .error he
    | ok hab =>
      cases ih with
      | error he => exact .error he
      | ok ih => exact .ok (.cons hab ih)

theorem collect {os : List (Outcome α)} {ps : List (Outcome γ)}
    (h : List.Forall₂ (fun o p => Agree E R o.result p.result) os ps) :
    Agree E (List.Forall₂ R) (collect os).result (collect ps).result := by
  induction h with
  | nil => exact .ok .nil
  | cons h _ ih =>
    refine h.bind fun a b _ hab => ih.bind fun as bs _ habs => ?_
    exact .ok (.cons hab habs)

end Agree

-- ---------------------------------------------------------------------------
-- Nodes
-- ---------------------------------------------------------------------------

def ParamsRel (P : Param Deferred → Param Deferred → Prop) :
    Params Deferred → Params Deferred → Prop :=
  List.Forall₂ fun entry other => entry.1 = other.1 ∧ P entry.2 other.2

theorem paramsRel_eq {params params' : Params Deferred} :
    ParamsRel (· = ·) params params' ↔ params = params' := by
  have h : (fun entry other : String × Param Deferred => entry.1 = other.1 ∧ entry.2 = other.2) =
      (· = ·) := by
    funext entry other
    exact propext Prod.ext_iff.symm
  rw [ParamsRel, h, List.forall₂_eq_eq_eq]

/-- Relations of errors, of parameters and of builders that a parse carries from the parts of a node
to the node. -/
structure Congruence (E : ConfigError → ConfigError → Prop)
    (P : Param Deferred → Param Deferred → Prop) (D : Deferred → Deferred → Prop) : Prop where
  error : ∀ e, E e e
  inField : ∀ e e' name, E e e' → E (e.inField name) (e'.inField name)
  operator : ∀ o, P (.operator o) (.operator o)
  factory : ∀ d d', D d d' → P (.factory d) (.factory d')
  factories : ∀ ds ds', List.Forall₂ D ds ds' → P (.factories ds) (.factories ds')
  initial : ∀ c types, ParamsRel P (Component.initialParams c types) (c.initialParams types)
  unbound : ∀ s params params', ParamsRel P params params' →
    D (.unbound s params) (.unbound s params')

theorem congruence_eq : Congruence (· = ·) (· = ·) (· = ·) where
  error _ := rfl
  inField _ _ _ := congrArg _
  operator _ := rfl
  factory _ _ := congrArg _
  factories _ _ h := by
    rw [List.forall₂_eq_eq_eq] at h
    rw [h]
  initial _ _ := paramsRel_eq.mpr rfl
  unbound _ _ _ h := congrArg _ (paramsRel_eq.mp h)

section
variable {E : ConfigError → ConfigError → Prop} {node other : Tree}

def TypeAgrees (E : ConfigError → ConfigError → Prop) (node other : Tree) (key : TypeKey) : Prop :=
  Option.Rel (fun t u => Agree E (· = ·) (typeText key t) (typeText key u))
    (node.find? key.text) (other.find? key.text)

variable (hE : ∀ e, E e e)
include hE

theorem resolveType_agree (α : Type) [Vocabulary α] {key : TypeKey}
    (h : TypeAgrees E node other key) (inherited : α) :
    Agree E (· = ·) (resolveType α key node inherited) (resolveType α key other inherited) := by
  unfold TypeAgrees at h
  unfold resolveType
  generalize node.find? key.text = entry, other.find? key.text = entry' at h
  cases h with
  | none => exact .ok rfl
  | @some t u h =>
    dsimp only
    generalize typeText key t = x, typeText key u = y at h
    cases h with
    | error h => exact .error h
    | ok h =>
      subst h
      exact .refl hE fun _ _ => rfl

theorem resolve_agree (h : ∀ key, TypeAgrees E node other key) (inherited : Instantiation) :
    Agree E (· = ·) (Instantiation.resolve node inherited)
      (Instantiation.resolve other inherited) := by
  have hvalue := resolveType_agree hE ValueType (h .valueType) inherited.value
  have hindex := resolveType_agree hE IndexType (h .indexType) inherited.index
  unfold Instantiation.resolve
  generalize resolveType ValueType .valueType node inherited.value = x,
    resolveType ValueType .valueType other inherited.value = y at hvalue
  generalize resolveType IndexType .indexType node inherited.index = x',
    resolveType IndexType .indexType other inherited.index = y' at hindex
  cases hvalue with
  | error h => exact .error h
  | ok hv =>
    cases hindex with
    | error h => exact .error h
    | ok hi => exact .ok (by rw [hv, hi])

theorem typeName_agree (h : TypeAgrees E node other .type) (kind : Kind) :
    Agree E (· = ·) (typeName kind node) (typeName kind other) := by
  unfold TypeAgrees at h
  unfold typeName
  generalize node.find? TypeKey.type.text = entry, other.find? TypeKey.type.text = entry' at h
  cases h with
  | none => exact .refl hE fun _ _ => rfl
  | some h => exact h

end

section
variable {β : Type} {ctx ctx' : Context β} {E : ConfigError → ConfigError → Prop}
  {P : Param Deferred → Param Deferred → Prop} {D : Deferred → Deferred → Prop} {c : Component}
  {types : Instantiation} {entries others : Tree.Entries} {parts parts' : List (String × Part)}

theorem ParamsRel.assign {params params' : Params Deferred} {p p' : Param Deferred}
    (h : ParamsRel P params params') (hp : P p p') (name : String) :
    ParamsRel P (params.assign name p) (params'.assign name p') := by
  unfold Params.assign
  rw [ParamsRel, List.forall₂_map_left_iff, List.forall₂_map_right_iff]
  refine h.imp ?_
  rintro ⟨key, old⟩ ⟨_, old'⟩ ⟨rfl, hold⟩
  refine ⟨rfl, ?_⟩
  dsimp only
  split
  · exact hp
  · exact hold

theorem objects_agree_of_not_array {t u : Tree} {f : Family} (ht : t.isArray = false)
    (hu : u.isArray = false)
    (h : Agree E D ((ctx.part t).object f types).result ((ctx'.part u).object f types).result) :
    Agree E (List.Forall₂ D) ((ctx.part t).objects f types).result
      ((ctx'.part u).objects f types).result := by
  rw [objects_part_of_not_array ht, objects_part_of_not_array hu]
  exact h.bind fun d d' _ hd => .ok (.cons hd .nil)

theorem objects_agree_of_array {items other : List Tree} {f : Family}
    (h : List.Forall₂ (fun t u => Agree E D ((ctx.part t).object f types).result
      ((ctx'.part u).object f types).result) items other) :
    Agree E (List.Forall₂ D) ((ctx.part (.array items)).objects f types).result
      ((ctx'.part (.array other)).objects f types).result := by
  change Agree E _ (collect ((ctx.elements items).map fun read => read f types)).result
    (collect ((ctx'.elements other).map fun read => read f types)).result
  simp only [Context.elements_eq_map, List.map_map]
  exact .collect (List.forall₂_map_left_iff.mpr (List.forall₂_map_right_iff.mpr h))

theorem objects_eq_of_not_array {t u : Tree} {f : Family} (ht : t.isArray = false)
    (hu : u.isArray = false)
    (h : ((ctx.part t).object f types).result = ((ctx'.part u).object f types).result) :
    ((ctx.part t).objects f types).result = ((ctx'.part u).objects f types).result := by
  have hobjects := objects_agree_of_not_array ht hu (agree_eq.mpr h)
  rwa [List.forall₂_eq_eq_eq, agree_eq] at hobjects

theorem objects_eq_of_array {items other : List Tree} {f : Family}
    (h : List.Forall₂ (fun t u => ((ctx.part t).object f types).result =
      ((ctx'.part u).object f types).result) items other) :
    ((ctx.part (.array items)).objects f types).result =
      ((ctx'.part (.array other)).objects f types).result := by
  have hobjects := objects_agree_of_array (h.imp fun _ _ hitem => agree_eq.mpr hitem)
  rwa [List.forall₂_eq_eq_eq, agree_eq] at hobjects

variable (hc : Congruence E P D)
include hc

theorem checkShapes_agree {fields : List Field}
    (h : ∀ f ∈ fields, Option.Rel
      (fun t u => f.shape.accepts t = f.shape.accepts u ∧
        (f.shape.accepts u = false → E (t.mismatch (.field f.name) f.shape.expected)
          (u.mismatch (.field f.name) f.shape.expected)))
      (entries.lookup f.name) (others.lookup f.name)) :
    Agree E (fun _ _ => True) (c.checkShapes entries fields) (c.checkShapes others fields) := by
  induction fields with
  | nil => exact .ok trivial
  | cons f rest ih =>
    rw [List.forall_mem_cons] at h
    obtain ⟨hf, hrest⟩ := h
    unfold Component.checkShapes
    generalize entries.lookup f.name = entry, others.lookup f.name = other at hf
    cases hf with
    | none =>
      dsimp only
      split
      · exact .error (hc.error _)
      · exact ih hrest
    | some hf =>
      obtain ⟨haccepts, herror⟩ := hf
      dsimp only
      rw [haccepts]
      split
      · exact ih hrest
      · next hrefused => exact .error (herror (Bool.not_eq_true _ ▸ hrefused))

theorem readField_agree {part part' : Part} {parameter : Parameter}
    (hregistry : ctx.registry = ctx'.registry)
    (hvalue : ∀ q, parameter.type.quantity? = some q →
      Agree E (fun v w => P (.value (q.target types) v) (.value (q.target types) w))
        ((q.target types).convert part.tree) ((q.target types).convert part'.tree))
    (hobject : ∀ f, parameter.type.shape = .object f →
      Agree E D (part.object f types).result (part'.object f types).result)
    (hobjects : ∀ f, parameter.type.shape = .objects f →
      Agree E (List.Forall₂ D) (part.objects f types).result (part'.objects f types).result)
    (hname : parameter.type.shape = .reference → part.tree.asText? = part'.tree.asText? ∧
      E (part.tree.mismatch (.field parameter.name) "registry name")
        (part'.tree.mismatch (.field parameter.name) "registry name")) :
    Agree E P (ctx.readField types parameter part).result
      (ctx'.readField types parameter part').result := by
  obtain ⟨name, type⟩ := parameter
  cases type with
  | leaf q _ | optionalLeaf q =>
    refine ((hvalue q rfl).mapError fun e e' => hc.inField e e' name).map fun v w hvw => hvw
  | factory f => exact (hobject f rfl).bind fun d d' _ h => .ok (hc.factory d d' h)
  | factories f => exact (hobjects f rfl).bind fun ds ds' _ h => .ok (hc.factories ds ds' h)
  | operator =>
    obtain ⟨htext, herror⟩ := hname rfl
    simp only [Context.readField, htext, hregistry]
    split
    · exact (Agree.refl hc.error fun _ _ => rfl).map fun o _ h => h ▸ hc.operator o
    · exact .error herror

def FieldAgrees (ctx ctx' : Context β) (E : ConfigError → ConfigError → Prop)
    (P : Param Deferred → Param Deferred → Prop) (c : Component) (types : Instantiation)
    (parts parts' : List (String × Part)) (name : String) : Prop :=
  Option.Rel
    (fun part part' => ∀ parameter, c.parameter? name = some parameter →
      Agree E P (ctx.readField types parameter part).result
        (ctx'.readField types parameter part').result)
    (parts.lookup name) (parts'.lookup name)

omit hc in
theorem fieldAgrees_of_lookup {name : String}
    (h : Option.Rel
      (fun t u => ∀ parameter, c.parameter? name = some parameter →
        Agree E P (ctx.readField types parameter (ctx.part t)).result
          (ctx'.readField types parameter (ctx'.part u)).result)
      (entries.lookup name) (others.lookup name)) :
    FieldAgrees ctx ctx' E P c types (ctx.parts entries) (ctx'.parts others) name := by
  unfold FieldAgrees
  rw [ctx.lookup_parts, ctx'.lookup_parts]
  generalize entries.lookup name = entry, others.lookup name = other at h
  cases h with
  | none => exact .none
  | some h => exact .some h

omit hc in
theorem readFields_agree {names : List String} {params params' : Params Deferred}
    (h : ∀ name ∈ names, FieldAgrees ctx ctx' E P c types parts parts' name)
    (hparams : ParamsRel P params params') :
    Agree E (ParamsRel P) (ctx.readFields c types parts names params).result
      (ctx'.readFields c types parts' names params').result := by
  induction names generalizing params params' with
  | nil => exact .ok hparams
  | cons name rest ih =>
    rw [List.forall_mem_cons] at h
    obtain ⟨hname, hrest⟩ := h
    unfold Context.readFields
    unfold FieldAgrees at hname
    generalize parts.lookup name = part, parts'.lookup name = part' at hname
    cases hname with
    | none => exact ih hrest hparams
    | some hpart =>
      cases hp : c.parameter? name with
      | none => exact ih hrest hparams
      | some parameter =>
        refine (hpart parameter hp).bind fun p p' _ hpp => ?_
        exact ih hrest (hparams.assign hpp name)

theorem readComponent_agree
    (hkeys : Agree E (fun _ _ => True) (c.checkKeys ctx.strictness entries).result
      (c.checkKeys ctx'.strictness others).result)
    (hshapes : Agree E (fun _ _ => True) (c.checkShapes entries c.fields)
      (c.checkShapes others c.fields))
    (hfields : ∀ f ∈ c.fields, FieldAgrees ctx ctx' E P c types parts parts' f.name) :
    Agree E D (ctx.readComponent c (c.signature types) types entries parts).result
      (ctx'.readComponent c (c.signature types) types others parts').result := by
  simp only [Context.readComponent, Component.component_signature]
  refine hkeys.bind fun _ _ _ _ => ?_
  refine Agree.bind (o := .ofExcept _) (p := .ofExcept _) hshapes fun _ _ _ _ => ?_
  have hreads : ∀ name ∈ c.reads, FieldAgrees ctx ctx' E P c types parts parts' name := by
    rw [c.reads_eq]
    exact List.forall_mem_map.mpr hfields
  refine (readFields_agree hreads (hc.initial c types)).bind fun params params' _ h => ?_
  exact .ok (hc.unbound _ params params' h)

/-- The texts of `Type` may differ, as long as they name the same component or none. -/
theorem dispatch_agree {kind : Kind} {inherited : Instantiation} {N : String → String → Prop}
    (hnames : ∀ s s', N s s' → Vocabulary.find? Component s = Vocabulary.find? Component s')
    (htypes : Agree E (· = ·) (Instantiation.resolve (.map entries) inherited)
      (Instantiation.resolve (.map others) inherited))
    (hname : Agree E N (typeName kind (.map entries)) (typeName kind (.map others)))
    (hcustom : ∀ types s s', N s s' → typeName kind (.map entries) = .ok s →
      Vocabulary.find? Component s = none →
      Agree E D (ctx.readCustom kind s (.map entries) types).result
        (ctx'.readCustom kind s' (.map others) types).result)
    (hcomponent : ∀ types s c, typeName kind (.map entries) = .ok s →
      Vocabulary.find? Component s = some c →
      Agree E D (ctx.readComponent c (c.signature types) types entries parts).result
        (ctx'.readComponent c (c.signature types) types others parts').result) :
    Agree E D (ctx.dispatch kind entries parts inherited).result
      (ctx'.dispatch kind others parts' inherited).result := by
  unfold Context.dispatch
  refine Agree.bind (o := .ofExcept _) (p := .ofExcept _) htypes ?_
  rintro types _ - rfl
  refine Agree.bind (o := .ofExcept _) (p := .ofExcept _) hname fun s s' hs hss => ?_
  rw [← hnames s s' hss]
  cases hfind : Vocabulary.find? Component s with
  | none => exact hcustom types s s' hss hs hfind
  | some c =>
    refine Agree.bind (o := .ofExcept _) (p := .ofExcept _) (.refl hc.error fun _ _ => rfl) ?_
    rintro _ _ hselect rfl
    obtain ⟨-, -, rfl⟩ := select_ok.mp hselect
    exact hcomponent types s c hs hfind

end

end SolverConfig
