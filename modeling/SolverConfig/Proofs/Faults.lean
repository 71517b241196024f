import SolverConfig.Proofs.Reading

/-!
# Faults of a node

What can be wrong with a node, one relation for each kind of fault and its errors, said of the node
and of the registry without the parse. A node can have faults of many kinds at once. Each stage of a
parse fails exactly with the faults of its kind.
-/

namespace SolverConfig

open Vocabulary (names find?)

-- ---------------------------------------------------------------------------
-- Before any value is read
-- ---------------------------------------------------------------------------

inductive MapFault (kind : Kind) (node : Tree) : ConfigError → Prop
  | intro (notMap : node.isMap = false) : MapFault kind node (node.mismatch (.node kind) "map")

/-- What stands under a key for a type is no text, or no name of such a type. -/
inductive TypeFault (α : Type) [Vocabulary α] (key : TypeKey) (node : Tree) : ConfigError → Prop
  | noText {t : Tree} (entry : node.find? key.text = some t) (noText : t.asText? = none) :
      TypeFault α key node (t.mismatch (.field key.text) "type name")
  | unknown {s : String} (entry : node.find? key.text = some (.text s))
      (unknown : ∀ a : α, names s a = false) : TypeFault α key node (.unknownType key s)

/-- The `Type` is no text, or it is left out where any member of a family may stand. -/
inductive NameFault (kind : Kind) (node : Tree) : ConfigError → Prop
  | noText {t : Tree} (entry : node.find? TypeKey.type.text = some t) (noText : t.asText? = none) :
      NameFault kind node (t.mismatch (.field TypeKey.type.text) "type name")
  | absent {f : Family} (family : kind = .family f)
      (absent : node.find? TypeKey.type.text = none) :
      NameFault kind node (.missingField kind TypeKey.type.text)

/-- The `Type` of a node is a name, but of no component. -/
def NamesOther (node : Tree) (s : String) : Prop :=
  node.find? TypeKey.type.text = some (.text s) ∧ ∀ c : Component, names s c = false

inductive LookupFault {β : Type} (r : Registry β) (node : Tree) : ConfigError → Prop
  | intro {s : String} (other : NamesOther node s) (unregistered : r.builder? s = none) :
      LookupFault r node (.unknownType TypeKey.type s)

/-- The `Type` names something else than what is asked for: a component of another family or another
component, or a custom builder where one component is asked for. -/
inductive RequestFault {β : Type} (r : Registry β) (kind : Kind) (node : Tree) : ConfigError → Prop
  | component {c : Component} (named : NamesComponent kind node c)
      (family : kind ≠ .family c.family) (component : kind ≠ .component c) :
      RequestFault r kind node (.typeMismatch (.field TypeKey.type.text) kind.name c.name)
  | builder {c : Component} {s : String} {b : β} (asked : kind = .component c)
      (other : NamesOther node s) (registered : r.builder? s = some b) :
      RequestFault r kind node (.typeMismatch (.field TypeKey.type.text) c.name s)

inductive InstanceFault (kind : Kind) (inherited : Instantiation) (node : Tree) :
    ConfigError → Prop
  | intro {c : Component} {types : Instantiation} (named : NamesComponent kind node c)
      (inEffect : TypesInEffect node inherited types) (indexed : c.generics = .valueIndex)
      (void : types.index = .void) : InstanceFault kind inherited node (.unsupported c types)

/-- A key that is neither for types nor a field of the component. -/
inductive Strange (c : Component) (key : String) : ConfigError → Prop
  | intro (noType : ∀ k : TypeKey, key ≠ k.text) (noField : ∀ f ∈ c.fields, key ≠ f.name) :
      Strange c key (.unknownField c key)

inductive KeyFault (strictness : Strictness) (kind : Kind) : Tree → ConfigError → Prop
  | intro {entries : Tree.Entries} {c : Component} {e : ConfigError} (strict : strictness = .strict)
      (named : NamesComponent kind (.map entries) c)
      (first : First (entries.map fun entry => Strange c entry.1) e) :
      KeyFault strictness kind (.map entries) e

inductive Misfits (c : Component) (entries : Tree.Entries) (f : Field) : ConfigError → Prop
  | absent (required : f.required = true) (absent : entries.lookup f.name = none) :
      Misfits c entries f (.missingField c f.name)
  | misshapen {t : Tree} (entry : entries.lookup f.name = some t)
      (shape : f.shape.accepts t = false) :
      Misfits c entries f (t.mismatch (.field f.name) f.shape.expected)

inductive FieldFault (kind : Kind) : Tree → ConfigError → Prop
  | intro {entries : Tree.Entries} {c : Component} {e : ConfigError}
      (named : NamesComponent kind (.map entries) c)
      (first : First (c.fields.map (Misfits c entries)) e) : FieldFault kind (.map entries) e

-- ---------------------------------------------------------------------------
-- Values
-- ---------------------------------------------------------------------------

namespace Context

variable {β : Type} (ctx : Context β)

/-- How a tree fails to be read as one object of a family. -/
inductive RefusesObject (f : Family) (types : Instantiation) : Tree → ConfigError → Prop
  | node {entries : Tree.Entries} {e : ConfigError}
      (failed : (ctx.parse (.family f) (.map entries) types).result = .error e) :
      RefusesObject f types (.map entries) e
  | family {entries : Tree.Entries} {d : Deferred}
      (parsed : (ctx.parse (.family f) (.map entries) types).result = .ok d)
      (other : d.family ≠ f) :
      RefusesObject f types (.map entries)
        (.typeMismatch .builder f.name (d.family.name ++ " " ++ d.info.text))
  | unregistered {s : String} (absent : ctx.registry.objects.lookup s = none) :
      RefusesObject f types (.text s) (.notFound .object s)
  | object {s : String} {o : Object} (registered : ctx.registry.objects.lookup s = some o)
      (other : ∀ g, o = .factory g → g.family ≠ f) :
      RefusesObject f types (.text s)
        (.typeMismatch (.object s) (ObjectKind.factory f).describe o.describe)
  | form {t : Tree} (noObject : Shape.isObject t = false) :
      RefusesObject f types t (t.mismatch (.node (.family f)) "map")

inductive RefusesObjects (f : Family) (types : Instantiation) : Tree → ConfigError → Prop
  | one {t : Tree} {e : ConfigError} (alone : t.isArray = false)
      (object : ctx.RefusesObject f types t e) : RefusesObjects f types t e
  | array {items : List Tree} {e : ConfigError}
      (first : First (items.map (ctx.RefusesObject f types)) e) :
      RefusesObjects f types (.array items) e

inductive Refuses (c : Component) (types : Instantiation) (f : Field) : Tree → ConfigError → Prop
  | value {t : Tree} {q : Quantity} {e : ConfigError} (quantity : c.quantity? f.name = some q)
      (fails : (q.target types).convert t = .error e) : Refuses c types f t (e.inField f.name)
  | object {t : Tree} {g : Family} {e : ConfigError} (shape : f.shape = .object g)
      (object : ctx.RefusesObject g types t e) : Refuses c types f t e
  | objects {t : Tree} {g : Family} {e : ConfigError} (shape : f.shape = .objects g)
      (objects : ctx.RefusesObjects g types t e) : Refuses c types f t e
  | unregistered {s : String} (shape : f.shape = .reference)
      (absent : ctx.registry.objects.lookup s = none) :
      Refuses c types f (.text s) (.notFound .object s)
  | reference {s : String} {o : Object} (shape : f.shape = .reference)
      (registered : ctx.registry.objects.lookup s = some o) (other : ∀ p, o ≠ .operator p) :
      Refuses c types f (.text s)
        (.typeMismatch (.object s) ObjectKind.operator.describe o.describe)
  | form {t : Tree} (shape : f.shape = .reference) (noText : t.asText? = none) :
      Refuses c types f t (t.mismatch (.field f.name) "registry name")

def RefusesField (c : Component) (types : Instantiation) (entries : Tree.Entries) (f : Field)
    (e : ConfigError) : Prop :=
  ∃ t, entries.lookup f.name = some t ∧ ctx.Refuses c types f t e

/-- The fields of a component fail to be read, one after another, or a custom builder refuses the
node. -/
inductive ValueFault (kind : Kind) (inherited : Instantiation) : Tree → ConfigError → Prop
  | field {entries : Tree.Entries} {c : Component} {types : Instantiation} {e : ConfigError}
      (named : NamesComponent kind (.map entries) c)
      (inEffect : TypesInEffect (.map entries) inherited types)
      (first : First (c.fields.map (ctx.RefusesField c types entries)) e) :
      ValueFault kind inherited (.map entries) e
  | builder {entries : Tree.Entries} {f : Family} {s : String} {b : β} {types : Instantiation}
      {e : ConfigError} (asked : kind = .family f) (other : NamesOther (.map entries) s)
      (registered : ctx.registry.builder? s = some b)
      (inEffect : TypesInEffect (.map entries) inherited types)
      (failed : (ctx.custom b ctx.registry (.map entries) types).result = .error e) :
      ValueFault kind inherited (.map entries) e

/-- The kinds of faults that are looked for before any value is read, in their order. -/
def checks (kind : Kind) (inherited : Instantiation) (node : Tree) : List (ConfigError → Prop) :=
  [MapFault kind node,
    TypeFault ValueType .valueType node,
    TypeFault IndexType .indexType node,
    NameFault kind node,
    LookupFault ctx.registry node,
    RequestFault ctx.registry kind node,
    InstanceFault kind inherited node,
    KeyFault ctx.strictness kind node,
    FieldFault kind node]

def faults (kind : Kind) (inherited : Instantiation) (node : Tree) : List (ConfigError → Prop) :=
  ctx.checks kind inherited node ++ [ctx.ValueFault kind inherited node]

end Context

-- ---------------------------------------------------------------------------
-- Errors in sequence
-- ---------------------------------------------------------------------------

section
variable {α γ : Type} {o : Outcome α} {f : α → Outcome γ} {faults rest : List (ConfigError → Prop)}

/-- The faults of a sequence are those of its first part and then those of the second. -/
theorem bind_first (ho : ∀ e, o.result = .error e ↔ First faults e)
    (hf : ∀ a, o.result = .ok a → ∀ e, (f a).result = .error e ↔ First rest e) (e : ConfigError) :
    (o.bind f).result = .error e ↔ First (faults ++ rest) e := by
  rw [Outcome.bind_result_eq_error, First.append, ← ho]
  refine or_congr_right ?_
  constructor
  · rintro ⟨a, ha, he⟩
    refine ⟨First.forall_not_iff.mpr fun e' hfirst => ?_, (hf a ha e).mp he⟩
    rw [← ho, ha] at hfirst
    cases hfirst
  · rintro ⟨hno, hrest⟩
    cases hr : o.result with
    | ok a => exact ⟨a, rfl, (hf a hr e).mpr hrest⟩
    | error e' => exact absurd ((ho e').mp hr) (First.forall_not_iff.mp hno e')

theorem bind_first_cons {F : ConfigError → Prop} (ho : ∀ e, o.result = .error e ↔ F e)
    (hf : ∀ a, o.result = .ok a → ∀ e, (f a).result = .error e ↔ First rest e) (e : ConfigError) :
    (o.bind f).result = .error e ↔ First (F :: rest) e :=
  bind_first (fun e => (ho e).trans First.single.symm) hf e

theorem collect_first {F : γ → ConfigError → Prop} {g : γ → Outcome α} {as : List γ}
    (h : ∀ a ∈ as, ∀ e, (g a).result = .error e ↔ F a e) (e : ConfigError) :
    (collect (as.map g)).result = .error e ↔ First (as.map F) e := by
  induction as generalizing e with
  | nil => simp [collect, First.nil]
  | cons a rest ih =>
    rw [List.forall_mem_cons] at h
    obtain ⟨ha, hrest⟩ := h
    refine bind_first_cons ha (fun x _ e => ?_) e
    rw [Outcome.bind_eq, Outcome.bind_result_eq_error, ih hrest]
    simp

end

-- ---------------------------------------------------------------------------
-- Names in a node
-- ---------------------------------------------------------------------------

theorem typeText_error {key : TypeKey} {t : Tree} {e : ConfigError} :
    typeText key t = .error e ↔
      t.asText? = none ∧ t.mismatch (.field key.text) "type name" = e := by
  unfold typeText
  cases t.asText? <;> simp

theorem resolveType_error {α : Type} [Vocabulary α] [LawfulVocabulary α] {key : TypeKey}
    {node : Tree} (inherited : α) {e : ConfigError} :
    resolveType α key node inherited = .error e ↔ TypeFault α key node e := by
  constructor
  · intro h
    unfold resolveType at h
    cases ht : node.find? key.text with
    | none => simp [ht] at h
    | some t =>
      rw [ht] at h
      dsimp only at h
      cases hs : typeText key t with
      | error e' =>
        obtain ⟨hno, rfl⟩ := typeText_error.mp hs
        rw [hs] at h
        cases h
        exact .noText ht hno
      | ok s =>
        obtain rfl := typeText_ok.mp hs
        rw [hs] at h
        dsimp only at h
        split at h
        · cases h
        · next hfind =>
          cases h
          exact .unknown ht (LawfulVocabulary.find?_eq_none_iff.mp hfind)
  · rintro (⟨ht, hno⟩ | ⟨ht, hno⟩)
    · simp [resolveType, ht, typeText, hno]
    · simp [resolveType, ht, typeText, Tree.asText?, LawfulVocabulary.find?_eq_none_iff.mpr hno]

theorem resolve_error {node : Tree} {inherited : Instantiation} (e : ConfigError) :
    Instantiation.resolve node inherited = .error e ↔
      First [TypeFault ValueType .valueType node, TypeFault IndexType .indexType node] e := by
  simp only [First.cons, First.nil, ← resolveType_error inherited.value,
    ← resolveType_error inherited.index, Instantiation.resolve]
  cases resolveType ValueType .valueType node inherited.value with
  | error e' => simp
  | ok v => cases resolveType IndexType .indexType node inherited.index <;> simp

theorem typeName_error {kind : Kind} {node : Tree} {e : ConfigError} :
    typeName kind node = .error e ↔ NameFault kind node e := by
  constructor
  · intro h
    unfold typeName at h
    cases ht : node.find? TypeKey.type.text with
    | some t =>
      rw [ht] at h
      obtain ⟨hno, rfl⟩ := typeText_error.mp h
      exact .noText ht hno
    | none =>
      rw [ht] at h
      cases kind with
      | component c => cases h
      | family f =>
        cases h
        exact .absent rfl ht
  · rintro (⟨ht, hno⟩ | ⟨rfl, ht⟩)
    · simp [typeName, ht, typeText, hno]
    · simp [typeName, ht]

theorem NamesOther.not_namesComponent {kind : Kind} {node : Tree} {s : String} {c : Component}
    (h : NamesOther node s) : ¬NamesComponent kind node c := by
  unfold NamesComponent
  rw [h.1]
  rintro ⟨_, ⟨⟩, hs⟩
  simp [h.2 c] at hs

theorem typeName_eq_iff_namesOther {kind : Kind} {node : Tree} {s : String} :
    typeName kind node = .ok s ∧ find? Component s = none ↔ NamesOther node s := by
  unfold typeName NamesOther
  rw [LawfulVocabulary.find?_eq_none_iff]
  refine and_congr_left fun hno => ?_
  cases ht : node.find? TypeKey.type.text with
  | some t => simp [typeText_ok]
  | none =>
    cases kind with
    | family f => simp
    | component c =>
      refine ⟨?_, nofun⟩
      rintro ⟨⟩
      exact nomatch (hno c).symm.trans (Vocabulary.names_name c)

-- ---------------------------------------------------------------------------
-- Checks before any value is read
-- ---------------------------------------------------------------------------

section
variable {β : Type} {r : Registry β} {kind : Kind} {inherited types : Instantiation}
  {entries : Tree.Entries} {c : Component}

section
variable {node : Tree} {s : String} {e : ConfigError}

theorem lookupFault_other (h : NamesOther node s) :
    LookupFault r node e ↔ r.builder? s = none ∧ .unknownType TypeKey.type s = e := by
  constructor
  · rintro ⟨h', hb⟩
    cases h.1.symm.trans h'.1
    exact ⟨hb, rfl⟩
  · rintro ⟨hb, rfl⟩
    exact .intro h hb

theorem requestFault_other (h : NamesOther node s) :
    RequestFault r kind node e ↔ ∃ c b, kind = .component c ∧ r.builder? s = some b ∧
      .typeMismatch (.field TypeKey.type.text) c.name s = e := by
  constructor
  · rintro (⟨hc, -, -⟩ | ⟨hk, h', hb⟩)
    · exact absurd hc h.not_namesComponent
    · cases h.1.symm.trans h'.1
      exact ⟨_, _, hk, hb, rfl⟩
  · rintro ⟨c, b, hk, hb, rfl⟩
    exact .builder hk h hb

theorem requestFault_component (hc : NamesComponent kind node c) :
    RequestFault r kind node e ↔ kind.admits c = false ∧
      .typeMismatch (.field TypeKey.type.text) kind.name c.name = e := by
  rw [← Bool.not_eq_true, admits_ok, not_or]
  constructor
  · rintro (⟨hc', hf, hk⟩ | ⟨-, hother, -⟩)
    · obtain rfl := hc.unique hc'
      exact ⟨⟨hf, hk⟩, rfl⟩
    · exact absurd hc hother.not_namesComponent
  · rintro ⟨⟨hf, hk⟩, rfl⟩
    exact .component hc hf hk

theorem instanceFault_component (hc : NamesComponent kind node c)
    (htypes : TypesInEffect node inherited types) :
    InstanceFault kind inherited node e ↔ c.supports types = false ∧
      .unsupported c types = e := by
  rw [← Bool.not_eq_true, supports_ok, Classical.not_imp, not_not]
  constructor
  · rintro ⟨hc', htypes', hindexed, hvoid⟩
    obtain rfl := hc.unique hc'
    obtain rfl := htypes'.unique htypes
    exact ⟨⟨hindexed, hvoid⟩, rfl⟩
  · rintro ⟨⟨hindexed, hvoid⟩, rfl⟩
    exact .intro hc htypes hindexed hvoid

end

theorem select_error {node : Tree} (hc : NamesComponent kind node c)
    (htypes : TypesInEffect node inherited types) (e : ConfigError) :
    c.select kind types = .error e ↔
      First [RequestFault r kind node, InstanceFault kind inherited node] e := by
  simp only [First.cons, First.nil, requestFault_component hc, instanceFault_component hc htypes,
    Component.select, Component.parameterSet_eq]
  cases kind.admits c <;> cases c.supports types <;> simp

theorem strange_iff {key : String} {e : ConfigError} :
    Strange c key e ↔ c.knows key = false ∧ .unknownField c key = e := by
  rw [← Bool.not_eq_true, knows_ok]
  simp only [not_or, not_exists, not_and]
  constructor
  · rintro ⟨hno, hfield⟩
    exact ⟨⟨hno, hfield⟩, rfl⟩
  · rintro ⟨⟨hno, hfield⟩, rfl⟩
    exact .intro hno hfield

theorem checkKeys_first {e : ConfigError} :
    (c.checkKeys .strict entries).result = .error e ↔
      First (entries.map fun entry => Strange c entry.1) e := by
  induction entries with
  | nil => simp [Component.checkKeys, First.nil]
  | cons entry rest ih =>
    rw [List.map_cons, First.cons, ← ih]
    simp only [Component.checkKeys, List.map_cons, List.filter_cons, strange_iff]
    cases c.knows entry.1 <;> simp

theorem checkKeys_error {strictness : Strictness} (hc : NamesComponent kind (.map entries) c)
    (e : ConfigError) :
    (c.checkKeys strictness entries).result = .error e ↔
      KeyFault strictness kind (.map entries) e := by
  cases strictness with
  | lenient =>
    refine ⟨nofun, ?_⟩
    rintro ⟨⟨⟩, -, -⟩
  | strict =>
    rw [checkKeys_first]
    constructor
    · exact .intro rfl hc
    · rintro ⟨-, hc', h⟩
      rwa [hc.unique hc']

theorem misfits_of_none {f : Field} {e : ConfigError} (h : entries.lookup f.name = none) :
    Misfits c entries f e ↔ f.required = true ∧ .missingField c f.name = e := by
  constructor
  · rintro (⟨hr, -⟩ | ⟨ht, -⟩)
    · exact ⟨hr, rfl⟩
    · cases h.symm.trans ht
  · rintro ⟨hr, rfl⟩
    exact .absent hr h

theorem misfits_of_some {f : Field} {t : Tree} {e : ConfigError}
    (h : entries.lookup f.name = some t) :
    Misfits c entries f e ↔
      f.shape.accepts t = false ∧ t.mismatch (.field f.name) f.shape.expected = e := by
  constructor
  · rintro (⟨-, hno⟩ | ⟨ht, ha⟩)
    · cases h.symm.trans hno
    · cases h.symm.trans ht
      exact ⟨ha, rfl⟩
  · rintro ⟨ha, rfl⟩
    exact .misshapen h ha

theorem checkShapes_first {fields : List Field} {e : ConfigError} :
    c.checkShapes entries fields = .error e ↔ First (fields.map (Misfits c entries)) e := by
  induction fields with
  | nil => simp [Component.checkShapes, First.nil]
  | cons f rest ih =>
    rw [List.map_cons, First.cons, ← ih, Component.checkShapes]
    cases h : entries.lookup f.name with
    | none => cases hr : f.required <;> simp [misfits_of_none h, hr]
    | some t => cases ha : f.shape.accepts t <;> simp [misfits_of_some h, ha]

theorem checkShapes_error (hc : NamesComponent kind (.map entries) c) (e : ConfigError) :
    c.checkShapes entries c.fields = .error e ↔ FieldFault kind (.map entries) e := by
  rw [checkShapes_first]
  constructor
  · exact .intro hc
  · rintro ⟨hc', h⟩
    rwa [hc.unique hc']

end

-- ---------------------------------------------------------------------------
-- Values
-- ---------------------------------------------------------------------------

theorem intoFamily_error {d : Deferred} {f : Family} {e : ConfigError} :
    d.intoFamily f = .error e ↔ d.family ≠ f ∧
      .typeMismatch .builder f.name (d.family.name ++ " " ++ d.info.text) = e := by
  unfold Deferred.intoFamily
  split <;> simp_all

section
variable {β : Type} {ctx : Context β} {f : Family} {types : Instantiation}

theorem factory_error {s : String} {e : ConfigError} :
    ctx.registry.factory f s = .error e ↔ ctx.RefusesObject f types (.text s) e := by
  unfold Registry.factory Registry.object
  constructor
  · intro h
    cases ho : ctx.registry.objects.lookup s with
    | none =>
      rw [ho] at h
      cases h
      exact .unregistered ho
    | some o =>
      rw [ho] at h
      cases o with
      | operator o =>
        cases h
        exact .object ho nofun
      | factory g =>
        dsimp only at h
        split at h
        · cases h
        · next hg =>
          cases h
          refine .object ho ?_
          rintro _ ⟨⟩
          exact hg
  · rintro (_ | _ | ho | ⟨ho, hother⟩ | ⟨⟨⟩⟩)
    · simp [ho]
    · rename_i o
      cases o with
      | operator o => simp [ho, Registry.wrongObject]
      | factory g => simp [ho, hother g rfl, Registry.wrongObject]

theorem object_error {t : Tree} (e : ConfigError) :
    ((ctx.part t).object f types).result = .error e ↔ ctx.RefusesObject f types t e := by
  cases t with
  | map entries =>
    rw [ctx.object_part_map]
    simp only [Context.parseFamily, Outcome.bind_eq, Outcome.bind_result_eq_error,
      Outcome.result_lift, intoFamily_error]
    constructor
    · rintro (h | ⟨d, hd, hother, rfl⟩)
      · exact .node h
      · exact .family hd hother
    · rintro (h | ⟨hd, hother⟩ | _ | _ | ⟨⟨⟩⟩)
      · exact .inl h
      · exact .inr ⟨_, hd, hother, rfl⟩
  | text s =>
    have h : ((ctx.part (.text s)).object f types).result =
        (ctx.registry.factory f s).map .bound := rfl
    rw [h, map_error, factory_error]
  | _ =>
    constructor
    · rintro ⟨⟩
      exact .form rfl
    · rintro ⟨⟩
      rfl

theorem objects_error {t : Tree} (e : ConfigError) :
    ((ctx.part t).objects f types).result = .error e ↔ ctx.RefusesObjects f types t e := by
  cases ha : t.isArray with
  | false =>
    rw [objects_part_of_not_array ha, Outcome.bind_result_eq_error, object_error]
    constructor
    · rintro (h | ⟨d, -, ⟨⟩⟩)
      exact .one ha h
    · rintro (⟨-, h⟩ | _)
      · exact .inl h
      · cases ha
  | true =>
    obtain ⟨items, rfl⟩ := Tree.exists_of_isArray ha
    have h : (ctx.part (.array items)).objects f types =
        collect ((ctx.elements items).map fun read => read f types) := rfl
    rw [h, ctx.elements_eq_map, List.map_map]
    refine (collect_first (fun item _ => object_error) e).trans ?_
    constructor
    · exact .array
    · rintro (⟨⟨⟩, -⟩ | h)
      exact h

end

section
variable {β : Type} {ctx : Context β} {c : Component} {types : Instantiation} {f : Field}
  {t : Tree} {e : ConfigError}

theorem refuses_converted {q : Quantity} (hs : f.shape.isConverted = true)
    (hq : c.quantity? f.name = some q) :
    ctx.Refuses c types f t e ↔
      ∃ e', (q.target types).convert t = .error e' ∧ e'.inField f.name = e := by
  constructor
  · rintro (⟨hq', he⟩ | ⟨h, _⟩ | ⟨h, _⟩ | ⟨h, _⟩ | ⟨h, _⟩ | ⟨h, _⟩)
    · cases hq.symm.trans hq'
      exact ⟨_, he, rfl⟩
    all_goals simp [h, Shape.isConverted] at hs
  · rintro ⟨e', he, rfl⟩
    exact .value hq he

theorem refuses_object {g : Family} (hs : f.shape = .object g) (hq : c.quantity? f.name = none) :
    ctx.Refuses c types f t e ↔ ctx.RefusesObject g types t e := by
  constructor
  · rintro (⟨hq', _⟩ | ⟨h, ho⟩ | ⟨h, _⟩ | ⟨h, _⟩ | ⟨h, _⟩ | ⟨h, _⟩)
    · cases hq.symm.trans hq'
    · cases hs.symm.trans h
      exact ho
    all_goals simp [hs] at h
  · exact .object hs

theorem refuses_objects {g : Family} (hs : f.shape = .objects g)
    (hq : c.quantity? f.name = none) :
    ctx.Refuses c types f t e ↔ ctx.RefusesObjects g types t e := by
  constructor
  · rintro (⟨hq', _⟩ | ⟨h, _⟩ | ⟨h, ho⟩ | ⟨h, _⟩ | ⟨h, _⟩ | ⟨h, _⟩)
    · cases hq.symm.trans hq'
    · simp [hs] at h
    · cases hs.symm.trans h
      exact ho
    all_goals simp [hs] at h
  · exact .objects hs

theorem operator_error {r : Registry β} {s : String} :
    r.operator s = .error e ↔ r.objects.lookup s = none ∧ .notFound .object s = e ∨
      ∃ o, r.objects.lookup s = some o ∧ (∀ p, o ≠ .operator p) ∧
        .typeMismatch (.object s) ObjectKind.operator.describe o.describe = e := by
  unfold Registry.operator Registry.object
  cases r.objects.lookup s with
  | none => simp
  | some o => cases o <;> simp [Registry.wrongObject]

theorem refuses_reference (hs : f.shape = .reference) (hq : c.quantity? f.name = none) :
    ctx.Refuses c types f t e ↔ (∃ s, t = .text s ∧ ctx.registry.operator s = .error e) ∨
      t.asText? = none ∧ t.mismatch (.field f.name) "registry name" = e := by
  simp only [operator_error]
  constructor
  · rintro (⟨hq', _⟩ | ⟨h, _⟩ | ⟨h, _⟩ | ⟨_, ho⟩ | ⟨_, ho, hother⟩ | ⟨_, hno⟩)
    · cases hq.symm.trans hq'
    · simp [hs] at h
    · simp [hs] at h
    · exact .inl ⟨_, rfl, .inl ⟨ho, rfl⟩⟩
    · exact .inl ⟨_, rfl, .inr ⟨_, ho, hother, rfl⟩⟩
    · exact .inr ⟨hno, rfl⟩
  · rintro (⟨s, rfl, ⟨ho, rfl⟩ | ⟨o, ho, hother, rfl⟩⟩ | ⟨hno, rfl⟩)
    · exact .unregistered hs ho
    · exact .reference hs ho hother
    · exact .form hs hno

theorem readField_error (hf : f ∈ c.fields) {parameter : Parameter}
    (hp : c.parameter? f.name = some parameter) :
    (ctx.readField types parameter (ctx.part t)).result = .error e ↔
      ctx.Refuses c types f t e := by
  have hname : parameter.name = f.name := by simpa using List.find?_some hp
  have hs : parameter.type.shape = f.shape := Component.shape_of_parameter? hf hp
  have hq := quantity?_of_parameter? hp
  unfold Context.readField
  cases ht : parameter.type with
  | leaf q _ | optionalLeaf q =>
    simp only [ht, ParameterType.shape, ParameterType.quantity?] at hs hq
    rw [refuses_converted (hs ▸ isConverted_shape q) hq, ← hname]
    simp only [Outcome.result_ofExcept, map_error, mapError_error, Context.tree_part]
  | factory g =>
    simp only [ht, ParameterType.shape, ParameterType.quantity?] at hs hq
    rw [refuses_object hs.symm hq, ← object_error]
    simp [Outcome.bind_eq, Outcome.bind_result_eq_error]
  | factories g =>
    simp only [ht, ParameterType.shape, ParameterType.quantity?] at hs hq
    rw [refuses_objects hs.symm hq, ← objects_error]
    simp [Outcome.bind_eq, Outcome.bind_result_eq_error]
  | operator =>
    simp only [ht, ParameterType.shape, ParameterType.quantity?] at hs hq
    rw [refuses_reference hs.symm hq, Context.tree_part, ← hname]
    cases t <;> simp [Tree.asText?, map_error]

theorem readFields_first {entries : Tree.Entries} {fields : List Field}
    (h : ∀ f ∈ fields, f ∈ c.fields) {params : Params Deferred} (e : ConfigError) :
    (ctx.readFields c types (ctx.parts entries) (fields.map Field.name) params).result =
        .error e ↔
      First (fields.map (ctx.RefusesField c types entries)) e := by
  induction fields generalizing params e with
  | nil => simp [Context.readFields, First.nil]
  | cons f rest ih =>
    rw [List.forall_mem_cons] at h
    obtain ⟨hf, hrest⟩ := h
    obtain ⟨parameter, hp, -⟩ := Option.map_eq_some_iff.mp (Component.shape_parameter? hf)
    rw [List.map_cons, List.map_cons, Context.readFields, ctx.lookup_parts]
    cases ht : entries.lookup f.name with
    | none =>
      have hno : ∀ e, ¬ctx.RefusesField c types entries f e := by
        rintro e ⟨t, ht', -⟩
        cases ht.symm.trans ht'
      rw [First.skip hno]
      exact ih hrest e
    | some t =>
      rw [Option.map_some, hp]
      refine bind_first_cons (fun e => ?_) (fun p _ => ih hrest) e
      rw [readField_error hf hp, Context.RefusesField, ht]
      simp

theorem readFields_error {kind : Kind} {inherited : Instantiation} {entries : Tree.Entries}
    (hc : NamesComponent kind (.map entries) c)
    (htypes : TypesInEffect (.map entries) inherited types) {params : Params Deferred}
    (e : ConfigError) :
    (ctx.readFields c types (ctx.parts entries) c.reads params).result = .error e ↔
      ctx.ValueFault kind inherited (.map entries) e := by
  rw [c.reads_eq, readFields_first fun f hf => hf]
  constructor
  · exact .field hc htypes
  · rintro (⟨hc', htypes', h⟩ | ⟨-, hother, -⟩)
    · rwa [hc.unique hc', htypes.unique htypes']
    · exact absurd hc hother.not_namesComponent

end

end SolverConfig
