import SolverConfig.Proofs.Descent
import SolverConfig.Proofs.Pruning

/-!
# Warnings

A lenient parse warns of the keys that pruning takes away, from the nodes of components whose
fields it comes to check, in the order in which it comes to them.
-/

namespace SolverConfig

-- ---------------------------------------------------------------------------
-- Visited nodes
-- ---------------------------------------------------------------------------

/-- A node of a component in a tree. Its place says, for each step down to it, under which of the
fields it is and which of the objects there. -/
structure Visit where
  place : List (Nat × Nat)
  component : Component
  entries : Tree.Entries

namespace Visit

def under (step : Nat × Nat) (v : Visit) : Visit := { v with place := step :: v.place }

/-- A node comes before those in it, and those come in the order of the fields and of the objects
under each. -/
def Before (v w : Visit) : Prop := List.Lex (Prod.Lex (· < ·) (· < ·)) v.place w.place

def warnings (v : Visit) : List Warning :=
  ((v.entries.map Prod.fst).filter fun key => !v.component.knows key).map
    fun key => ⟨v.component, key⟩

end Visit

/-- A node comes to the check of its fields: it names a component that may stand there and takes the
types in effect. -/
structure Checked (kind : Kind) (inherited : Instantiation) (entries : Tree.Entries) (c : Component)
    (types : Instantiation) : Prop where
  names : NamesComponent kind (.map entries) c
  resolved : TypesInEffect (.map entries) inherited types
  admits : kind.admits c = true
  supports : c.supports types = true

namespace Context

variable {β : Type} (ctx : Context β)

/-- A field of a node comes to be read: all fields have their shapes, and those before it can be
read. -/
structure ReadsField (c : Component) (types : Instantiation) (entries : Tree.Entries) (k : Nat)
    (f : Field) (t : Tree) : Prop where
  shapes : ∀ f ∈ c.fields, (f.required = true → (entries.lookup f.name).isSome = true) ∧
    ∀ t, entries.lookup f.name = some t → f.shape.accepts t = true
  field : c.fields[k]? = some f
  entry : entries.lookup f.name = some t
  earlier : ∀ j < k, ∀ f, c.fields[j]? = some f → ∀ t, entries.lookup f.name = some t →
    ∃ p, ctx.Says c types f t p

structure ReadsObject (g : Family) (types : Instantiation) (t : Tree) (i : Nat) (child : Tree) :
    Prop where
  object : t.objectAt? i = some child
  earlier : ∀ j < i, ∀ u, t.objectAt? j = some u → ∃ d, ctx.SaysObject g types u d

/-- The nodes in a tree that come to the check of their fields. -/
inductive Visits : Kind → Instantiation → Tree → Visit → Prop
  | here {kind : Kind} {inherited types : Instantiation} {entries : Tree.Entries} {c : Component}
      (checked : Checked kind inherited entries c types) :
      Visits kind inherited (.map entries) ⟨[], c, entries⟩
  | nested {kind : Kind} {inherited types : Instantiation} {entries : Tree.Entries} {c : Component}
      {k i : Nat} {f : Field} {g : Family} {t child : Tree} {v : Visit}
      (checked : Checked kind inherited entries c types)
      (field : ctx.ReadsField c types entries k f t)
      (shape : f.shape = .object g ∨ f.shape = .objects g)
      (object : ctx.ReadsObject g types t i child)
      (below : Visits (.family g) types child v) :
      Visits kind inherited (.map entries) (v.under (k, i))

end Context

-- ---------------------------------------------------------------------------
-- Warnings of visits
-- ---------------------------------------------------------------------------

/-- The warnings of all visits of a kind, in their order. -/
def Lists (P : Visit → Prop) (warnings : List Warning) : Prop :=
  ∃ visits : List Visit, visits.Pairwise Visit.Before ∧ (∀ v, v ∈ visits ↔ P v) ∧
    warnings = visits.flatMap Visit.warnings

namespace Lists

variable {P Q : Visit → Prop} {ws ws' : List Warning}

theorem nil (h : ∀ v, ¬P v) : Lists P [] :=
  ⟨[], .nil, by simpa using h, rfl⟩

theorem single (v : Visit) : Lists (fun w => w = v) v.warnings :=
  ⟨[v], List.pairwise_singleton _ v, by simp, by simp⟩

theorem congr (h : Lists P ws) (hPQ : ∀ v, P v ↔ Q v) : Lists Q ws := by
  obtain ⟨visits, hsorted, hmem, hw⟩ := h
  exact ⟨visits, hsorted, fun v => (hmem v).trans (hPQ v), hw⟩

theorem append (hP : Lists P ws) (hQ : Lists Q ws') (h : ∀ v w, P v → Q w → v.Before w) :
    Lists (fun v => P v ∨ Q v) (ws ++ ws') := by
  obtain ⟨visits, hsorted, hmem, rfl⟩ := hP
  obtain ⟨visits', hsorted', hmem', rfl⟩ := hQ
  refine ⟨visits ++ visits', List.pairwise_append.mpr ⟨hsorted, hsorted', fun v hv w hw => ?_⟩,
    fun v => ?_, List.flatMap_append.symm⟩
  · exact h v w ((hmem v).mp hv) ((hmem' w).mp hw)
  · rw [List.mem_append, hmem, hmem']

theorem under (h : Lists P ws) (step : Nat × Nat) :
    Lists (fun v => ∃ w, P w ∧ v = w.under step) ws := by
  obtain ⟨visits, hsorted, hmem, rfl⟩ := h
  refine ⟨visits.map (Visit.under step), ?_, fun v => ?_, ?_⟩
  · exact List.pairwise_map.mpr (hsorted.imp fun hvw => .cons hvw)
  · simp only [List.mem_map, hmem, eq_comm]
  · rw [List.flatMap_map]
    rfl

end Lists

section
variable {α γ : Type} {o : Outcome α} {f : α → Outcome γ}

theorem Outcome.warnings_bind_ok {a : α} (h : o.result = .ok a) :
    (o.bind f).warnings = o.warnings ++ (f a).warnings := by
  simp [Outcome.bind, h]

theorem Outcome.warnings_bind_error {e : ConfigError} (h : o.result = .error e) :
    (o.bind f).warnings = o.warnings := by
  simp [Outcome.bind, h]

theorem Outcome.warnings_bind_silent (h : ∀ a, (f a).warnings = []) :
    (o.bind f).warnings = o.warnings := by
  cases hr : o.result with
  | ok a => rw [warnings_bind_ok hr, h, List.append_nil]
  | error e => exact warnings_bind_error hr

theorem warnings_collect_ok {rest : List (Outcome α)} {a : α} (h : o.result = .ok a) :
    (collect (o :: rest)).warnings = o.warnings ++ (collect rest).warnings := by
  rw [collect, Outcome.bind_eq, Outcome.warnings_bind_ok h]
  exact congrArg _ (Outcome.warnings_bind_silent fun _ => rfl)

theorem warnings_collect_error {rest : List (Outcome α)} {e : ConfigError}
    (h : o.result = .error e) : (collect (o :: rest)).warnings = o.warnings :=
  Outcome.warnings_bind_error h

end

section
variable {α γ : Type} {f : γ → Outcome α}

def ComesTo (f : γ → Outcome α) (as : List γ) (P : Nat → γ → Prop) : Prop :=
  ∃ i a, as[i]? = some a ∧ (∀ j < i, ∀ b, as[j]? = some b → ∃ x, (f b).result = .ok x) ∧ P i a

theorem comesTo_cons {a : γ} {rest : List γ} {P : Nat → γ → Prop} : ComesTo f (a :: rest) P ↔
    P 0 a ∨ (∃ x, (f a).result = .ok x) ∧ ComesTo f rest fun i => P (i + 1) := by
  constructor
  · rintro ⟨i, b, hb, hok, hP⟩
    cases i with
    | zero =>
      obtain rfl := Option.some.inj hb
      exact .inl hP
    | succ i =>
      exact .inr ⟨hok 0 i.succ_pos a rfl, i, b, hb, fun j hj => hok (j + 1) (by omega), hP⟩
  · rintro (hP | ⟨hx, i, b, hb, hok, hP⟩)
    · exact ⟨0, a, rfl, by simp, hP⟩
    · refine ⟨i + 1, b, hb, fun j hj c hc => ?_, hP⟩
      cases j with
      | zero =>
        obtain rfl := Option.some.inj hc
        exact hx
      | succ j => exact hok j (by omega) c hc

theorem Lists.collect (f : γ → Outcome α) (as : List γ) (P : Nat → γ → Visit → Prop)
    (h : ∀ i a, as[i]? = some a → Lists (P i a) (f a).warnings)
    (horder : ∀ i j a b v w, i < j → P i a v → P j b w → v.Before w) :
    Lists (fun v => ComesTo f as fun i a => P i a v) (collect (as.map f)).warnings := by
  induction as generalizing P with
  | nil => exact .nil (by simp [ComesTo])
  | cons a rest ih =>
    have hfirst : Lists (P 0 a) (f a).warnings := h 0 a rfl
    rw [List.map_cons]
    cases hr : (f a).result with
    | error e =>
      rw [warnings_collect_error hr]
      exact hfirst.congr fun v => by simp [comesTo_cons, hr]
    | ok x =>
      have hrest := ih (fun i => P (i + 1)) (fun i b hb => h (i + 1) b hb)
        fun i j b c v w hij => horder (i + 1) (j + 1) b c v w (by omega)
      rw [warnings_collect_ok hr]
      refine (hfirst.append hrest ?_).congr fun v => by simp [comesTo_cons, hr]
      rintro v w hv ⟨i, b, -, -, hw⟩
      exact horder 0 (i + 1) a b v w i.succ_pos hv hw

end

-- ---------------------------------------------------------------------------
-- Objects
-- ---------------------------------------------------------------------------

section
variable {β : Type} {ctx : Context β} {g : Family} {types : Instantiation} {t : Tree}

def Context.VisitsUnder (ctx : Context β) (g : Family) (types : Instantiation) (t : Tree) (k : Nat)
    (v : Visit) : Prop :=
  ∃ i child w, ctx.ReadsObject g types t i child ∧ ctx.Visits (.family g) types child w ∧
    v = w.under (k, i)

/-- Reading a tree, as one object or as several, warns of the nodes in it that are visited. -/
def Context.Notes (ctx : Context β) (t : Tree) : Prop :=
  ∀ g types, Lists (ctx.Visits (.family g) types t) ((ctx.part t).object g types).warnings ∧
    ∀ k, Lists (ctx.VisitsUnder g types t k) ((ctx.part t).objects g types).warnings

theorem lists_objects_of_not_array (h : t.isArray = false)
    (hobject : Lists (ctx.Visits (.family g) types t) ((ctx.part t).object g types).warnings)
    (k : Nat) : Lists (ctx.VisitsUnder g types t k) ((ctx.part t).objects g types).warnings := by
  rw [objects_part_of_not_array h, Outcome.warnings_bind_silent fun _ => rfl]
  refine (hobject.under (k, 0)).congr fun v => ?_
  constructor
  · rintro ⟨w, hw, rfl⟩
    exact ⟨0, t, w, ⟨(objectAt?_of_not_array h).mpr ⟨rfl, rfl⟩, by simp⟩, hw, rfl⟩
  · rintro ⟨i, child, w, ⟨ho, -⟩, hw, rfl⟩
    obtain ⟨rfl, rfl⟩ := (objectAt?_of_not_array h).mp ho
    exact ⟨w, hw, rfl⟩

theorem lists_objects_of_array {items : List Tree}
    (h : ∀ item ∈ items,
      Lists (ctx.Visits (.family g) types item) ((ctx.part item).object g types).warnings)
    (k : Nat) :
    Lists (ctx.VisitsUnder g types (.array items) k)
      ((ctx.part (.array items)).objects g types).warnings := by
  change Lists _ (collect ((ctx.elements items).map fun read => read g types)).warnings
  rw [ctx.elements_eq_map, List.map_map]
  have hcollect := Lists.collect ((fun read => read g types) ∘ fun t => (ctx.part t).object) items
    (fun i child v => ∃ w, ctx.Visits (.family g) types child w ∧ v = w.under (k, i)) ?_ ?_
  · refine hcollect.congr fun v => ?_
    constructor
    · rintro ⟨i, child, hi, hok, w, hw, rfl⟩
      refine ⟨i, child, w, ⟨hi, fun j hj u hu => ?_⟩, hw, rfl⟩
      obtain ⟨d, hd⟩ := hok j hj u hu
      exact ⟨d, object_ok.mp hd⟩
    · rintro ⟨i, child, w, ⟨hi, hok⟩, hw, rfl⟩
      refine ⟨i, child, hi, fun j hj u hu => ?_, w, hw, rfl⟩
      obtain ⟨d, hd⟩ := hok j hj u hu
      exact ⟨d, object_ok.mpr hd⟩
  · exact fun i item hi => (h item (List.mem_of_getElem? hi)).under (k, i)
  · rintro i j _ _ v w hij ⟨_, -, rfl⟩ ⟨_, -, rfl⟩
    exact .rel (.right _ hij)

end

-- ---------------------------------------------------------------------------
-- Fields
-- ---------------------------------------------------------------------------

section
variable {β : Type} {ctx : Context β} {c : Component} {types : Instantiation}
  {entries : Tree.Entries}

def Context.readNamed (ctx : Context β) (c : Component) (types : Instantiation)
    (parts : List (String × Part)) (name : String) : Outcome Unit :=
  match parts.lookup name, c.parameter? name with
  | some part, some parameter =>
    (ctx.readField types parameter part).bind fun _ => .ofExcept (.ok ())
  | _, _ => .ofExcept (.ok ())

theorem warnings_readFields {parts : List (String × Part)} {names : List String}
    {params : Params Deferred} :
    (ctx.readFields c types parts names params).warnings =
      (collect (names.map (ctx.readNamed c types parts))).warnings := by
  induction names generalizing params with
  | nil => rfl
  | cons name rest ih =>
    rw [List.map_cons, Context.readFields]
    have hread : ctx.readNamed c types parts name = match parts.lookup name, c.parameter? name with
      | some part, some parameter =>
        (ctx.readField types parameter part).bind fun _ => .ofExcept (.ok ())
      | _, _ => .ofExcept (.ok ()) := rfl
    cases hpart : parts.lookup name with
    | none =>
      rw [hpart] at hread
      rw [warnings_collect_ok (by rw [hread]; rfl), hread, ih]
      rfl
    | some part =>
      cases hp : c.parameter? name with
      | none =>
        rw [hpart, hp] at hread
        rw [warnings_collect_ok (by rw [hread]; rfl), hread, ih]
        rfl
      | some parameter =>
        rw [hpart, hp] at hread
        dsimp only at hread ⊢
        rw [Outcome.bind_eq]
        cases hr : (ctx.readField types parameter part).result with
        | error e =>
          rw [warnings_collect_error (by rw [hread, Outcome.bind, hr]), hread,
            Outcome.warnings_bind_error hr, Outcome.warnings_bind_error hr]
        | ok p =>
          rw [warnings_collect_ok (by rw [hread, Outcome.bind, hr]; rfl), hread,
            Outcome.warnings_bind_ok hr, Outcome.warnings_bind_silent fun _ => rfl, ih]

theorem warnings_readField (name : String) (type : ParameterType) (part : Part) :
    (ctx.readField types ⟨name, type⟩ part).warnings = match type with
      | .factory g => (part.object g types).warnings
      | .factories g => (part.objects g types).warnings
      | _ => [] := by
  cases type with
  | leaf | optionalLeaf => rfl
  | operator =>
    unfold Context.readField
    dsimp only
    split <;> rfl
  | factory | factories => exact Outcome.warnings_bind_silent fun _ => rfl

section
variable {f : Field} (hf : f ∈ c.fields)
include hf

theorem readNamed_of_entry (ctx : Context β) (types : Instantiation) {t : Tree}
    (ht : entries.lookup f.name = some t) :
    ∃ parameter, c.parameter? f.name = some parameter ∧ parameter.type.shape = f.shape ∧
      ctx.readNamed c types (ctx.parts entries) f.name =
        (ctx.readField types parameter (ctx.part t)).bind fun _ => .ofExcept (.ok ()) := by
  obtain ⟨parameter, hp, hs⟩ := Option.map_eq_some_iff.mp (Component.shape_parameter? hf)
  refine ⟨parameter, hp, hs, ?_⟩
  rw [Context.readNamed, ctx.lookup_parts, ht, hp]
  rfl

theorem readNamed_ok (hshape : ∀ t, entries.lookup f.name = some t → f.shape.accepts t = true) :
    (∃ u, (ctx.readNamed c types (ctx.parts entries) f.name).result = .ok u) ↔
      ∀ t, entries.lookup f.name = some t → ∃ p, ctx.Says c types f t p := by
  cases ht : entries.lookup f.name with
  | none =>
    rw [Context.readNamed, ctx.lookup_parts, ht]
    simp
  | some t =>
    obtain ⟨parameter, hp, -, hread⟩ := readNamed_of_entry hf ctx types ht
    simp only [hread, Outcome.bind_result_eq_ok, Option.some.injEq, forall_eq']
    constructor
    · rintro ⟨_, p, hr, -⟩
      exact ⟨p, (readField_ok hf hp).mp ⟨hshape t ht, hr⟩⟩
    · rintro ⟨p, hs⟩
      exact ⟨(), p, ((readField_ok hf hp).mpr hs).2, rfl⟩

theorem lists_readNamed (hshape : ∀ t, entries.lookup f.name = some t → f.shape.accepts t = true)
    (h : ∀ entry ∈ entries, ctx.Notes entry.2) (k : Nat) :
    Lists (fun v => ∃ t g, entries.lookup f.name = some t ∧
        (f.shape = .object g ∨ f.shape = .objects g) ∧ ctx.VisitsUnder g types t k v)
      (ctx.readNamed c types (ctx.parts entries) f.name).warnings := by
  cases ht : entries.lookup f.name with
  | none =>
    rw [Context.readNamed, ctx.lookup_parts, ht]
    exact .nil (by simp)
  | some t =>
    obtain ⟨⟨name, type⟩, hp, hs, hread⟩ := readNamed_of_entry hf ctx types ht
    have hnotes : ctx.Notes t := h _ (mem_of_lookup ht)
    rw [hread, Outcome.warnings_bind_silent fun _ => rfl, warnings_readField]
    cases type with
    | leaf q _ | optionalLeaf q =>
      have hno : ∀ g, f.shape ≠ .object g ∧ f.shape ≠ .objects g := by
        rw [← hs]
        cases q <;> exact fun g => ⟨nofun, nofun⟩
      exact .nil (by simp [hno])
    | operator => exact .nil (by simp [← hs, ParameterType.shape])
    | factory g =>
      replace hs : f.shape = .object g := hs.symm
      -- The shape refuses an array here, so the entry counts as one object.
      have hleaf : t.isArray = false := by
        have ha := hshape t ht
        rw [hs] at ha
        cases t <;> first | rfl | cases ha
      have hlists := lists_objects_of_not_array hleaf (hnotes g types).1 k
      rw [objects_part_of_not_array hleaf, Outcome.warnings_bind_silent fun _ => rfl] at hlists
      exact hlists.congr fun v => by simp [hs]
    | factories g =>
      replace hs : f.shape = .objects g := hs.symm
      exact ((hnotes g types).2 k).congr fun v => by simp [hs]

end

-- ---------------------------------------------------------------------------
-- Nodes
-- ---------------------------------------------------------------------------

theorem lists_readFields {params : Params Deferred}
    (hshapes : ∀ f ∈ c.fields, (f.required = true → (entries.lookup f.name).isSome = true) ∧
      ∀ t, entries.lookup f.name = some t → f.shape.accepts t = true)
    (h : ∀ entry ∈ entries, ctx.Notes entry.2) :
    Lists (fun v => ∃ k f t g, ctx.ReadsField c types entries k f t ∧
        (f.shape = .object g ∨ f.shape = .objects g) ∧ ctx.VisitsUnder g types t k v)
      (ctx.readFields c types (ctx.parts entries) c.reads params).warnings := by
  have hread : ∀ f ∈ c.fields,
      (∃ u, (ctx.readNamed c types (ctx.parts entries) f.name).result = .ok u) ↔
        ∀ t, entries.lookup f.name = some t → ∃ p, ctx.Says c types f t p :=
    fun f hf => readNamed_ok hf (hshapes f hf).2
  rw [warnings_readFields, c.reads_eq, List.map_map]
  have hcollect := Lists.collect (ctx.readNamed c types (ctx.parts entries) ∘ Field.name) c.fields
    (fun k f v => ∃ t g, entries.lookup f.name = some t ∧
      (f.shape = .object g ∨ f.shape = .objects g) ∧ ctx.VisitsUnder g types t k v) ?_ ?_
  · refine hcollect.congr fun v => ?_
    constructor
    · rintro ⟨k, f, hk, hok, t, g, ht, hs, hv⟩
      refine ⟨k, f, t, g, ⟨hshapes, hk, ht, fun j hj f' hf' => ?_⟩, hs, hv⟩
      exact (hread f' (List.mem_of_getElem? hf')).mp (hok j hj f' hf')
    · rintro ⟨k, f, t, g, ⟨-, hk, ht, hok⟩, hs, hv⟩
      refine ⟨k, f, hk, fun j hj f' hf' => ?_, t, g, ht, hs, hv⟩
      exact (hread f' (List.mem_of_getElem? hf')).mpr (hok j hj f' hf')
  · intro k f hk
    have hf := List.mem_of_getElem? hk
    exact lists_readNamed hf (hshapes f hf).2 h k
  · rintro i j _ _ v w hij ⟨_, _, -, -, _, _, _, -, -, rfl⟩ ⟨_, _, -, -, _, _, _, -, -, rfl⟩
    exact .rel (.left _ _ hij)

variable {kind : Kind} {inherited : Instantiation}

theorem visits_map {v : Visit} :
    ctx.Visits kind inherited (.map entries) v ↔ ∃ c types, Checked kind inherited entries c types ∧
      (v = ⟨[], c, entries⟩ ∨ ∃ k f t g, ctx.ReadsField c types entries k f t ∧
        (f.shape = .object g ∨ f.shape = .objects g) ∧ ctx.VisitsUnder g types t k v) := by
  constructor
  · rintro (⟨hc⟩ | ⟨hc, hf, hs, ho, hv⟩)
    · exact ⟨_, _, hc, .inl rfl⟩
    · exact ⟨_, _, hc, .inr ⟨_, _, _, _, hf, hs, _, _, _, ho, hv, rfl⟩⟩
  · rintro ⟨c, types, hc, rfl | ⟨k, f, t, g, hf, hs, i, child, w, ho, hw, rfl⟩⟩
    · exact .here hc
    · exact .nested hc hf hs ho hw

theorem Checked.unique {c' : Component} {types' : Instantiation}
    (h : Checked kind inherited entries c types) (h' : Checked kind inherited entries c' types') :
    c' = c ∧ types' = types :=
  ⟨h'.names.unique h.names, h'.resolved.unique h.resolved⟩

theorem lists_readComponent (hl : ctx.strictness = .lenient)
    (hc : Checked kind inherited entries c types) (h : ∀ entry ∈ entries, ctx.Notes entry.2) :
    Lists (ctx.Visits kind inherited (.map entries))
      (ctx.readComponent c (c.signature types) types entries (ctx.parts entries)).warnings := by
  have hkeys : c.checkKeys ctx.strictness entries = .warn (Visit.warnings ⟨[], c, entries⟩) := by
    rw [hl]
    rfl
  have hvisits : ∀ v, ctx.Visits kind inherited (.map entries) v ↔ (v = ⟨[], c, entries⟩ ∨
      ∃ k f t g, ctx.ReadsField c types entries k f t ∧
        (f.shape = .object g ∨ f.shape = .objects g) ∧ ctx.VisitsUnder g types t k v) := by
    refine fun v => visits_map.trans ⟨?_, fun hv => ⟨c, types, hc, hv⟩⟩
    rintro ⟨c', types', hc', hv⟩
    obtain ⟨rfl, rfl⟩ := hc.unique hc'
    exact hv
  have hhere := Lists.single ⟨[], c, entries⟩
  simp only [Context.readComponent, Component.component_signature, Outcome.bind_eq, hkeys]
  rw [Outcome.warnings_bind_ok (a := ()) rfl]
  cases hs : c.checkShapes entries c.fields with
  | error e =>
    -- A field without its shape ends the node before any other is visited.
    have hno : ∀ {k f t}, ¬ctx.ReadsField c types entries k f t := fun hread => by
      have hok : c.checkShapes entries c.fields = .ok () := checkShapes_ok.mpr hread.shapes
      rw [hs] at hok
      cases hok
    change Lists _ (Visit.warnings ⟨[], c, entries⟩ ++ [])
    rw [List.append_nil]
    exact hhere.congr fun v => by simp [hvisits, hno]
  | ok u =>
    change Lists _ (Visit.warnings ⟨[], c, entries⟩ ++
      ((ctx.readFields c types (ctx.parts entries) c.reads _).bind _).warnings)
    rw [Outcome.warnings_bind_silent fun _ => rfl]
    refine (hhere.append (lists_readFields (checkShapes_ok.mp hs) h) ?_).congr
      fun v => (hvisits v).symm
    rintro v w rfl ⟨_, _, _, _, -, -, _, _, _, -, -, rfl⟩
    exact .nil

theorem dispatch_eq (parts : List (String × Part)) :
    ctx.dispatch kind entries parts inherited =
      (Outcome.ofExcept (Instantiation.resolve (.map entries) inherited)).bind fun types =>
        (Outcome.ofExcept (typeName kind (.map entries))).bind fun name =>
          match Vocabulary.find? Component name with
          | none => ctx.readCustom kind name (.map entries) types
          | some c =>
            (Outcome.ofExcept (c.select kind types)).bind fun s =>
              ctx.readComponent c s types entries parts := rfl

theorem dispatch_of_checked (hc : Checked kind inherited entries c types)
    (parts : List (String × Part)) :
    ctx.dispatch kind entries parts inherited =
      ctx.readComponent c (c.signature types) types entries parts := by
  obtain ⟨name, hname, hfind⟩ := typeName_ok.mpr hc.names
  have hselect : c.select kind types = .ok (c.signature types) :=
    select_ok.mpr ⟨hc.admits, hc.supports, rfl⟩
  simp only [dispatch_eq, resolve_ok.mpr hc.resolved, hname, hfind, hselect,
    Outcome.ofExcept_ok_bind]

theorem warnings_dispatch_of_not_checked
    (hcustom : ∀ b node types, (ctx.custom b ctx.registry node types).warnings = [])
    (hno : ¬∃ c types, Checked kind inherited entries c types) (parts : List (String × Part)) :
    (ctx.dispatch kind entries parts inherited).warnings = [] := by
  rw [dispatch_eq]
  cases htypes : Instantiation.resolve (.map entries) inherited with
  | error e => rfl
  | ok types =>
    rw [Outcome.ofExcept_ok_bind]
    cases hname : typeName kind (.map entries) with
    | error e => rfl
    | ok name =>
      rw [Outcome.ofExcept_ok_bind]
      cases hfind : Vocabulary.find? Component name with
      | none =>
        unfold Context.readCustom
        dsimp only
        split
        · rfl
        · rfl
        · exact hcustom _ _ _
      | some c =>
        dsimp only
        cases hselect : c.select kind types with
        | error e => rfl
        | ok s =>
          obtain ⟨hadmits, hsupports, -⟩ := select_ok.mp hselect
          exact absurd ⟨c, types, typeName_ok.mp ⟨name, hname, hfind⟩, resolve_ok.mp htypes,
            hadmits, hsupports⟩ hno

theorem lists_parse_map (hl : ctx.strictness = .lenient)
    (hcustom : ∀ b node types, (ctx.custom b ctx.registry node types).warnings = [])
    (h : ∀ entry ∈ entries, ctx.Notes entry.2) :
    Lists (ctx.Visits kind inherited (.map entries))
      (ctx.parse kind (.map entries) inherited).warnings := by
  rw [Context.parse]
  by_cases hc : ∃ c types, Checked kind inherited entries c types
  · obtain ⟨c, types, hc⟩ := hc
    rw [dispatch_of_checked hc]
    exact lists_readComponent hl hc h
  · rw [warnings_dispatch_of_not_checked hcustom hc]
    refine .nil fun v hv => hc ?_
    obtain ⟨c, types, hchecked, -⟩ := visits_map.mp hv
    exact ⟨c, types, hchecked⟩

end

-- ---------------------------------------------------------------------------
-- Trees
-- ---------------------------------------------------------------------------

section
variable {β : Type} {ctx : Context β} (hl : ctx.strictness = .lenient)
  (hcustom : ∀ b node types, (ctx.custom b ctx.registry node types).warnings = [])

theorem notes_leaf {t : Tree} (ha : t.isArray = false) (hm : t.isMap = false) : ctx.Notes t := by
  intro g types
  have hobject : Lists (ctx.Visits (.family g) types t) ((ctx.part t).object g types).warnings := by
    cases t with
    | array items => cases ha
    | map entries => cases hm
    | _ => exact .nil fun v hv => nomatch hv
  exact ⟨hobject, lists_objects_of_not_array ha hobject⟩

include hl hcustom

theorem notes (t : Tree) : ctx.Notes t := by
  induction t using Tree.induction with
  | leaf t ha hm => exact notes_leaf ha hm
  | array items ih =>
    refine fun g types => ⟨.nil fun v hv => (nomatch hv), ?_⟩
    exact lists_objects_of_array fun item hi => (ih item hi g types).1
  | map entries ih =>
    intro g types
    have hobject : Lists (ctx.Visits (.family g) types (.map entries))
        ((ctx.part (.map entries)).object g types).warnings := by
      rw [ctx.object_part_map, Context.parseFamily, Outcome.bind_eq,
        Outcome.warnings_bind_silent fun _ => rfl]
      exact lists_parse_map hl hcustom ih
    exact ⟨hobject, lists_objects_of_not_array rfl hobject⟩

theorem lists_parse (kind : Kind) (tree : Tree) (inherited : Instantiation) :
    Lists (ctx.Visits kind inherited tree) (ctx.parse kind tree inherited).warnings := by
  cases tree with
  | map entries => exact lists_parse_map hl hcustom fun entry _ => notes hl hcustom entry.2
  | _ => exact .nil fun v hv => nomatch hv

end

/-- A lenient parse gives what a strict parse gives without the unknown keys, the same builder or
the same error. If custom builders give no warnings, it warns of the unknown keys of the nodes that
it visits, in their order. -/
theorem lenient_parse_prunes {β : Type} (ctx : Context β) (kind : Kind) (tree : Tree)
    (inherited : Instantiation) :
    ((ctx.under .lenient).parse kind tree inherited).result =
        ((ctx.under .strict).parse kind (tree.prune kind) inherited).result ∧
      ((∀ b node types, (ctx.custom b ctx.registry node types).warnings = []) →
        ∃ visits : List Visit, visits.Pairwise Visit.Before ∧
          (∀ v, v ∈ visits ↔ (ctx.under .lenient).Visits kind inherited tree v) ∧
          ((ctx.under .lenient).parse kind tree inherited).warnings =
            visits.flatMap Visit.warnings) := by
  have hl : (ctx.under .lenient).strictness = .lenient := rfl
  exact ⟨lenient_eq_strict_prune ctx kind tree inherited,
    fun hcustom => lists_parse hl hcustom kind tree inherited⟩

theorem lenient_parse_prunes_iteration :
    let direct : Factory := .mk 0 (.reference 0) ⟨.cg, none, none⟩ []
    let ctx : Context Unit :=
      { registry := ⟨[], [("custom::Direct", ())]⟩
        custom := fun _ _ _ _ => .ofExcept (.ok (.bound direct))
        strictness := .strict }
    let iteration : Tree :=
      .map [("Type", .text "Iteration"), ("patience", .integer 4), ("max_iters", .integer 3)]
    let cg : Tree :=
      .map [("verbose", .boolean true), ("criteria", iteration), ("Type", .text "solver::Cg")]
    ((ctx.under .lenient).parse (.family .linOp) cg ⟨.float64, .int32⟩).result =
        ((ctx.under .strict).parse (.family .linOp) (cg.prune (.family .linOp))
          ⟨.float64, .int32⟩).result ∧
      ∃ visits : List Visit,
        visits.flatMap Visit.warnings = [⟨.cg, "verbose"⟩, ⟨.iteration, "patience"⟩] := by
  intro direct ctx iteration cg
  obtain ⟨hresult, hwarnings⟩ := lenient_parse_prunes ctx (.family .linOp) cg ⟨.float64, .int32⟩
  obtain ⟨visits, -, -, hw⟩ := hwarnings fun _ _ _ => rfl
  refine ⟨hresult, visits, hw.symm.trans ?_⟩
  decide

end SolverConfig
