import SolverConfig.Proofs.Reading

/-!
# The grammar of configurations

`NodeOk` says which trees are configurations of a kind, in terms of the tables of the components
and of the objects of a registry alone. A strict parse without custom builders accepts exactly
these trees.
-/

namespace SolverConfig

/-- The trees of the shapes whose fields are converted. -/
inductive Shape.Converted : Shape → Tree → Prop
  | scalar {t : Tree} (leaf : t.isLeaf = true) : Converted .scalar t
  | number {t : Tree} (leaf : t.isLeaf = true) : Converted .value t
  | pair {items : List Tree} (leaves : ∀ item ∈ items, item.isLeaf = true) :
      Converted .value (.array items)
  | array {items : List Tree} (leaves : ∀ item ∈ items, item.isLeaf = true) :
      Converted .array (.array items)

theorem converted_ok {s : Shape} {t : Tree} :
    s.Converted t ↔ s.isConverted = true ∧ s.accepts t = true := by
  constructor
  · rintro (h | h | h | h)
    all_goals simp_all [Shape.isConverted, Shape.accepts, Shape.isArrayOf, Tree.asArray?]
  · rintro ⟨hs, ha⟩
    cases s with
    | scalar => exact .scalar ha
    | value =>
      rcases Bool.or_eq_true_iff.mp ha with hl | hl
      · exact .number hl
      · cases t with
        | array items => exact .pair (List.all_eq_true.mp hl)
        | _ => simp [Shape.isArrayOf, Tree.asArray?] at hl
    | array =>
      cases t with
      | array items => exact .array (List.all_eq_true.mp ha)
      | _ => simp [Shape.accepts, Shape.isArrayOf, Tree.asArray?] at ha
    | _ => cases hs

-- ---------------------------------------------------------------------------
-- The grammar
-- ---------------------------------------------------------------------------

section
variable {β : Type} (r : Registry β)

mutual

/-- The nodes of a kind below the types that they inherit. -/
inductive NodeOk : Kind → Instantiation → Tree → Prop
  | intro {kind : Kind} {inherited types : Instantiation} {entries : Tree.Entries} {c : Component}
      (names : NamesComponent kind (.map entries) c)
      (asked : kind = .family c.family ∨ kind = .component c)
      (inEffect : TypesInEffect (.map entries) inherited types)
      (indexed : c.generics = .valueIndex → types.index ≠ .void)
      (known : ∀ entry ∈ entries,
        (∃ key : TypeKey, entry.1 = key.text) ∨ ∃ f ∈ c.fields, entry.1 = f.name)
      (present : ∀ f ∈ c.fields, f.required = true → ∃ t, entries.lookup f.name = some t)
      (fields : ∀ f ∈ c.fields, ∀ t, entries.lookup f.name = some t → FieldOk c types f t) :
      NodeOk kind inherited (.map entries)

/-- The trees under a field of a component below the types that are in effect. -/
inductive FieldOk : Component → Instantiation → Field → Tree → Prop
  | value {c : Component} {types : Instantiation} {f : Field} {t : Tree} {q : Quantity}
      {v : (q.target types).Carrier} (shape : f.shape.Converted t)
      (parameter : c.quantity? f.name = some q) (converts : (q.target types).convert t = .ok v) :
      FieldOk c types f t
  | object {c : Component} {types : Instantiation} {f : Field} {t : Tree} {g : Family}
      (shape : f.shape = .object g) (object : ObjectOk g types t) : FieldOk c types f t
  | objects {c : Component} {types : Instantiation} {f : Field} {t : Tree} {g : Family}
      (shape : f.shape = .objects g) (objects : ObjectsOk g types t) : FieldOk c types f t
  | reference {c : Component} {types : Instantiation} {f : Field} {s : String} {o : Operator}
      (shape : f.shape = .reference) (registered : r.objects.lookup s = some (.operator o)) :
      FieldOk c types f (.text s)

inductive ObjectOk : Family → Instantiation → Tree → Prop
  | node {f : Family} {types : Instantiation} {t : Tree} (node : NodeOk (.family f) types t) :
      ObjectOk f types t
  | name {f : Family} {types : Instantiation} {s : String} {g : Factory}
      (registered : r.objects.lookup s = some (.factory g)) (family : g.family = f) :
      ObjectOk f types (.text s)

inductive ObjectsOk : Family → Instantiation → Tree → Prop
  | one {f : Family} {types : Instantiation} {t : Tree} (object : ObjectOk f types t) :
      ObjectsOk f types t
  | array {f : Family} {types : Instantiation} {items : List Tree}
      (objects : ∀ item ∈ items, ObjectOk f types item) : ObjectsOk f types (.array items)

end

end

-- ---------------------------------------------------------------------------
-- Acceptance
-- ---------------------------------------------------------------------------

section
variable {β : Type} {ctx : Context β} {f : Family} {types : Instantiation} {t : Tree}

/-- What says something as one object, or as several, is what the grammar has there. -/
def Context.Agrees (ctx : Context β) (t : Tree) : Prop :=
  ∀ f types, ((∃ d, ctx.SaysObject f types t d) ↔ ObjectOk ctx.registry f types t) ∧
    ((∃ ds, ctx.SaysObjects f types t ds) ↔ ObjectsOk ctx.registry f types t)

theorem saysObjects_of_not_array (h : t.isArray = false) :
    (∃ ds, ctx.SaysObjects f types t ds) ↔ ∃ d, ctx.SaysObject f types t d := by
  constructor
  · rintro ⟨_, ⟨hd⟩ | _⟩
    · exact ⟨_, hd⟩
    · cases h
  · rintro ⟨d, hd⟩
    exact ⟨[d], .one hd⟩

theorem objectsOk_of_not_array {r : Registry β} (h : t.isArray = false) :
    ObjectsOk r f types t ↔ ObjectOk r f types t := by
  constructor
  · rintro (ho | _)
    · exact ho
    · cases h
  · exact .one

theorem agrees_of_not_array (ha : t.isArray = false)
    (h : ∀ f types, (∃ d, ctx.SaysObject f types t d) ↔ ObjectOk ctx.registry f types t) :
    ctx.Agrees t := by
  intro f types
  rw [saysObjects_of_not_array ha, objectsOk_of_not_array ha]
  exact ⟨h f types, h f types⟩

theorem agrees_leaf (ha : t.isArray = false) (hm : t.isMap = false) : ctx.Agrees t := by
  refine agrees_of_not_array ha fun f types => ⟨?_, ?_⟩
  · rintro ⟨d, _ | ⟨hr, hf⟩⟩
    · cases hm
    · exact .name hr hf
  · rintro (⟨⟨⟩⟩ | ⟨hr, hf⟩)
    · cases hm
    · exact ⟨_, .name hr hf⟩

theorem agrees_array {items : List Tree} (h : ∀ item ∈ items, ctx.Agrees item) :
    ctx.Agrees (.array items) := by
  refine fun f types => ⟨⟨?_, ?_⟩, ⟨?_, ?_⟩⟩
  · rintro ⟨_, ⟨⟩⟩
  · rintro ⟨⟨⟩⟩
  · rintro ⟨ds, ⟨⟨⟩⟩ | ⟨hds⟩⟩
    refine .array fun item hi => ?_
    exact (h item hi f types).1.mp (forall₂_exists.mp ⟨ds, hds⟩ item hi)
  · rintro (⟨⟨⟨⟩⟩⟩ | ⟨hall⟩)
    obtain ⟨ds, hds⟩ := forall₂_exists.mpr fun item hi => (h item hi f types).1.mpr (hall item hi)
    exact ⟨ds, .array hds⟩

theorem says_iff_fieldOk {c : Component} {field : Field} (h : ctx.Agrees t) :
    (∃ p, ctx.Says c types field t p) ↔ FieldOk ctx.registry c types field t := by
  constructor
  · rintro ⟨p, ⟨hs, ha, hq, hv⟩ | ⟨hs, ho⟩ | ⟨hs, ho⟩ | ⟨hs, hr⟩⟩
    · exact .value (converted_ok.mpr ⟨hs, ha⟩) hq hv
    · exact .object hs ((h _ _).1.mp ⟨_, ho⟩)
    · exact .objects hs ((h _ _).2.mp ⟨_, ho⟩)
    · exact .reference hs hr
  · rintro (⟨hs, hq, hv⟩ | ⟨hs, ho⟩ | ⟨hs, ho⟩ | ⟨hs, hr⟩)
    · obtain ⟨hs, ha⟩ := converted_ok.mp hs
      exact ⟨_, .value hs ha hq hv⟩
    · obtain ⟨d, hd⟩ := (h _ _).1.mpr ho
      exact ⟨_, .object hs hd⟩
    · obtain ⟨ds, hds⟩ := (h _ _).2.mpr ho
      exact ⟨_, .objects hs hds⟩
    · exact ⟨_, .reference hs hr⟩

end

section
variable {β : Type} {ctx : Context β} {kind : Kind} {inherited : Instantiation}
  {entries : Tree.Entries}

theorem parse_map_isOk (hs : ctx.strictness = .strict) (hb : ctx.registry.builders = [])
    (h : ∀ entry ∈ entries, ctx.Agrees entry.2) :
    (∃ d, (ctx.parse kind (.map entries) inherited).result = .ok d) ↔
      NodeOk ctx.registry kind inherited (.map entries) := by
  have hfield : ∀ c types f t, entries.lookup f.name = some t →
      ((∃ p, ctx.Says c types f t p) ↔ FieldOk ctx.registry c types f t) :=
    fun c types f t ht => says_iff_fieldOk (h _ (mem_of_lookup ht))
  constructor
  · rintro ⟨d, hd⟩
    obtain ⟨c, hc⟩ := namesComponent_of_parse_ok hb hd
    obtain ⟨types, htypes, hkind, hsupp, hkeys, hrequired, hfields⟩ :=
      (parse_component_isOk hc).mp ⟨d, hd⟩
    exact .intro hc (admits_ok.mp hkind) htypes (supports_ok.mp hsupp)
      (fun entry he => knows_ok.mp (hkeys hs entry he))
      (fun f hf hr => Option.isSome_iff_exists.mp (hrequired f hf hr))
      (fun f hf t ht => (hfield c types f t ht).mp (hfields f hf t ht))
  · -- Nothing but the fields leads further down, and for these the grammar has been settled.
    rintro ⟨hc, hkind, htypes, hindex, hkeys, hpresent, hfields⟩
    refine (parse_component_isOk hc).mpr ⟨_, htypes, admits_ok.mpr hkind, supports_ok.mpr hindex,
      fun _ entry he => knows_ok.mpr (hkeys entry he), fun f hf hr => ?_, fun f hf t ht => ?_⟩
    · exact Option.isSome_iff_exists.mpr (hpresent f hf hr)
    · exact (hfield _ _ f t ht).mpr (hfields f hf t ht)

theorem family_of_parse_ok (hb : ctx.registry.builders = []) {d : Deferred}
    (h : (ctx.parse kind (.map entries) inherited).result = .ok d) : d.family = kind.toFamily := by
  obtain ⟨c, hc⟩ := namesComponent_of_parse_ok hb h
  obtain ⟨types, params, -, hkind, -, -, -, -, rfl⟩ := (parse_component_ok hc).mp h
  rw [toFamily_of_admits hkind]
  exact Component.family_signature c types

theorem agrees_map (hs : ctx.strictness = .strict) (hb : ctx.registry.builders = [])
    (h : ∀ entry ∈ entries, ctx.Agrees entry.2) : ctx.Agrees (.map entries) := by
  refine agrees_of_not_array rfl fun f types => ⟨?_, ?_⟩
  · rintro ⟨d, ⟨hd, -⟩ | _⟩
    exact .node ((parse_map_isOk hs hb h).mp ⟨d, hd⟩)
  · rintro (⟨hn⟩ | _)
    obtain ⟨d, hd⟩ := (parse_map_isOk hs hb h).mpr hn
    exact ⟨d, .node hd (family_of_parse_ok hb hd)⟩

theorem agrees (hs : ctx.strictness = .strict) (hb : ctx.registry.builders = []) (t : Tree) :
    ctx.Agrees t := by
  induction t using Tree.induction with
  | leaf t ha hm => exact agrees_leaf ha hm
  | array items ih => exact agrees_array ih
  | map entries ih => exact agrees_map hs hb ih

end

/-- A strict parse without custom builders accepts the trees of the grammar and no others. -/
theorem parse_isOk_iff_nodeOk {β : Type} (ctx : Context β) (hs : ctx.strictness = .strict)
    (hb : ctx.registry.builders = []) (kind : Kind) (tree : Tree) (inherited : Instantiation) :
    (∃ d, (ctx.parse kind tree inherited).result = .ok d) ↔
      NodeOk ctx.registry kind inherited tree := by
  cases tree with
  | map entries => exact parse_map_isOk hs hb fun entry _ => agrees hs hb entry.2
  | _ =>
    constructor
    · rintro ⟨d, h⟩
      cases h
    · rintro ⟨⟩

theorem nodeOk_preconditioned_cg :
    NodeOk (Registry.empty : Registry Empty) (.component .cg) ⟨.float64, .void⟩
      (.map [("criteria", .array [.map [("Type", .text "Iteration"), ("max_iters", .integer 5)]]),
        ("ValueType", .text "float"),
        ("preconditioner", .map [("Type", .text "preconditioner::Jacobi"),
          ("IndexType", .text "int64"), ("block_pointers", .array [.integer 0, .integer 2])])]) :=
  (parse_isOk_iff_nodeOk (.bare .strict) rfl rfl ..).mp ⟨_, rfl⟩

end SolverConfig
