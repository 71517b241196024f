import SolverConfig.Proofs.Descent
import SolverConfig.Proofs.Spellings

/-!
# Single objects

A field that takes several objects takes one alone as well. To put it into an array of its own
changes nothing of a parse, wherever in the tree that is done. The objects of an array are read one
by one.
-/

namespace SolverConfig

-- ---------------------------------------------------------------------------
-- Trees with objects in arrays of their own
-- ---------------------------------------------------------------------------

namespace Tree

mutual

/-- The second tree is the first with some single objects put into arrays of their own. -/
inductive Grouped : Kind → Tree → Tree → Prop
  | leaf {kind : Kind} {t : Tree} (notArray : t.isArray = false) (notMap : t.isMap = false) :
      Grouped kind t t
  | array {kind : Kind} {items others : List Tree} (each : GroupedItems items others) :
      Grouped kind (.array items) (.array others)
  | map {kind : Kind} {entries others : Entries}
      (each : GroupedEntries (kind.component? (.map entries)) entries others) :
      Grouped kind (.map entries) (.map others)

inductive GroupedItems : List Tree → List Tree → Prop
  | nil : GroupedItems [] []
  | cons {f : Family} {t u : Tree} {rest others : List Tree} (head : Grouped (.family f) t u)
      (tail : GroupedItems rest others) : GroupedItems (t :: rest) (u :: others)

inductive GroupedEntries : Option Component → Entries → Entries → Prop
  | nil {c? : Option Component} : GroupedEntries c? [] []
  | cons {c? : Option Component} {key : String} {t u : Tree} {rest others : Entries}
      (head : GroupedUnder c? key t u) (tail : GroupedEntries c? rest others) :
      GroupedEntries c? ((key, t) :: rest) ((key, u) :: others)

/-- What becomes of the tree under a key of a node, which may name a component. It is put into an
array only where it is a single object and the component has a field that takes several. -/
inductive GroupedUnder : Option Component → String → Tree → Tree → Prop
  | kept {c? : Option Component} {key : String} {f : Family} {t u : Tree}
      (below : Grouped (.family f) t u) : GroupedUnder c? key t u
  | put {c : Component} {f : Field} {g : Family} {t u : Tree} (field : f ∈ c.fields)
      (shape : f.shape = .objects g) (object : Shape.isObject t = true)
      (below : Grouped (.family g) t u) : GroupedUnder (some c) f.name t (.array [u])

end

-- ---------------------------------------------------------------------------
-- The form of a tree
-- ---------------------------------------------------------------------------

theorem Grouped.family {f : Family} {t u : Tree} (h : Grouped (.family f) t u) (g : Family) :
    Grouped (.family g) t u := by
  cases h with
  | leaf ha hm => exact .leaf ha hm
  | array each => exact .array each
  | map each => exact .map each

theorem GroupedItems.forall₂ {items others : List Tree} (h : GroupedItems items others)
    (f : Family) : List.Forall₂ (Grouped (.family f)) items others := by
  induction items generalizing others with
  | nil =>
    cases h
    exact .nil
  | cons t rest ih =>
    cases h with
    | cons head tail => exact .cons (head.family f) (ih tail)

theorem GroupedItems.mismatch {items others : List Tree} (h : GroupedItems items others)
    (subject : Subject) (expected : String) :
    (Tree.array items).mismatch subject expected =
      (Tree.array others).mismatch subject expected := by
  rw [Tree.mismatch, Tree.mismatch, describe, describe, (h.forall₂ .linOp).length_eq]

section
variable {kind : Kind} {t u : Tree} (h : Grouped kind t u)
include h

theorem Grouped.isArray : t.isArray = u.isArray := by
  cases h <;> rfl

theorem Grouped.isLeaf : t.isLeaf = u.isLeaf := by
  cases h <;> rfl

theorem Grouped.asText? : t.asText? = u.asText? := by
  cases h <;> rfl

theorem Grouped.isObject : Shape.isObject t = Shape.isObject u := by
  cases h <;> rfl

theorem Grouped.mismatch (subject : Subject) (expected : String) :
    t.mismatch subject expected = u.mismatch subject expected := by
  cases h with
  | leaf _ _ | map _ => rfl
  | array each => exact each.mismatch subject expected

theorem Grouped.isArrayOf {p : Tree → Bool}
    (hp : ∀ {kind : Kind} {t u : Tree}, Grouped kind t u → p t = p u) :
    Shape.isArrayOf p t = Shape.isArrayOf p u := by
  cases h with
  | leaf _ _ | map _ => rfl
  | array each => exact Shape.isArrayOf_congr ((each.forall₂ .linOp).imp fun _ _ hitem => hp hitem)

theorem Grouped.accepts (s : Shape) : s.accepts t = s.accepts u :=
  Shape.accepts_congr h.isLeaf h.isObject h.asText? (h.isArrayOf Grouped.isLeaf)
    (h.isArrayOf Grouped.isObject) s

theorem Grouped.typeText (key : TypeKey) : typeText key t = typeText key u := by
  simp only [SolverConfig.typeText, h.asText?, h.mismatch]

end

end Tree

-- ---------------------------------------------------------------------------
-- Values
-- ---------------------------------------------------------------------------

section
variable {kind : Kind} {t u : Tree} (h : Tree.Grouped kind t u)
include h

theorem Numeric.convert_grouped (n : Numeric) : n.convert t = n.convert u := by
  cases h with
  | leaf _ _ => rfl
  | map _ => cases n <;> rfl
  | array each => cases n <;> exact congrArg Except.error (each.mismatch _ _)

theorem Target.convert_complex_grouped (n : Numeric) :
    (Target.complex n).convert t = (Target.complex n).convert u := by
  cases h with
  | leaf _ _ | map _ => rfl
  | array each =>
    have hmismatch := each.mismatch
    rcases each.forall₂ .linOp with _ | @⟨re, re', _, _, hre, _ | @⟨im, im', _, _, him, _ | _⟩⟩
    · rfl
    · exact congrArg Except.error (hmismatch _ _)
    · simp only [Target.convert, Numeric.convert_grouped hre, Numeric.convert_grouped him]
    · exact congrArg Except.error (hmismatch _ _)

theorem Target.convert_grouped (target : Target) : target.convert t = target.convert u := by
  induction target generalizing kind t u with
  | number n => exact Numeric.convert_grouped h n
  | complex n => exact Target.convert_complex_grouped h n
  | list target ih =>
    cases h with
    | leaf _ _ | map _ => rfl
    | array each =>
      have hitems := Agree.mapM ((each.forall₂ .linOp).imp fun _ _ hitem =>
        agree_eq.mpr (ih hitem))
      rwa [List.forall₂_eq_eq_eq, agree_eq] at hitems
  | _ =>
    cases h with
    | leaf _ _ | map _ => rfl
    | array each => exact congrArg Except.error (each.mismatch _ _)

end

-- ---------------------------------------------------------------------------
-- The entries of a node
-- ---------------------------------------------------------------------------

section
variable {c? : Option Component} {c : Component} {t u : Tree} {entries others : Tree.Entries}

theorem shape_of_name_eq {f f' : Field} {g : Family} (hf : f ∈ c.fields) (hf' : f' ∈ c.fields)
    (hn : f.name = f'.name) (hs : f.shape = .objects g) : f'.shape = .objects g := by
  have hnesting : f'.shape.nesting? = some (g, true) := by
    rw [← nesting?_of_mem hf', ← hn, nesting?_of_mem hf, hs]
    rfl
  cases h : f'.shape <;> simp_all [Shape.nesting?]

theorem Tree.GroupedUnder.of_field {f : Field} (hf : f ∈ c.fields)
    (h : Tree.GroupedUnder (some c) f.name t u) :
    (∃ g, Tree.Grouped (.family g) t u) ∨
      ∃ g v, f.shape = .objects g ∧ Shape.isObject t = true ∧ Tree.Grouped (.family g) t v ∧
        u = .array [v] := by
  generalize hn : f.name = name at h
  cases h with
  | kept below => exact .inl ⟨_, below⟩
  | put field shape object below =>
    exact .inr ⟨_, _, shape_of_name_eq field hf hn.symm shape, object, below, rfl⟩

theorem Tree.GroupedUnder.of_typeKey {key : TypeKey} (h : Tree.GroupedUnder c? key.text t u) :
    ∃ g, Tree.Grouped (.family g) t u := by
  generalize hn : key.text = name at h
  cases h with
  | kept below => exact ⟨_, below⟩
  | @put c f g _ _ field shape _ _ =>
    have hnesting := nesting?_typeKey c key
    rw [hn, nesting?_of_mem field, shape] at hnesting
    cases hnesting

theorem Tree.GroupedEntries.keys (h : Tree.GroupedEntries c? entries others) :
    entries.map Prod.fst = others.map Prod.fst := by
  induction entries generalizing others with
  | nil =>
    cases h
    rfl
  | cons entry rest ih =>
    cases h with
    | cons _ tail => rw [List.map_cons, List.map_cons, ih tail]

theorem Tree.GroupedEntries.lookup (h : Tree.GroupedEntries c? entries others) (key : String) :
    Option.Rel (Tree.GroupedUnder c? key) (entries.lookup key) (others.lookup key) := by
  induction entries generalizing others with
  | nil =>
    cases h
    exact .none
  | cons entry rest ih =>
    cases h with
    | @cons _ k t u _ _ head tail =>
      rw [List.lookup_cons, List.lookup_cons]
      cases hk : key == k with
      | true =>
        obtain rfl : key = k := beq_iff_eq.mp hk
        exact .some head
      | false => exact ih tail

theorem typeAgrees_grouped (h : Tree.GroupedEntries c? entries others) (key : TypeKey) :
    TypeAgrees (· = ·) (.map entries) (.map others) key := by
  refine optionRel_imp (h.lookup key.text) fun t u _ hunder => ?_
  obtain ⟨g, hkept⟩ := hunder.of_typeKey
  exact agree_eq.mpr (hkept.typeText key)

end

-- ---------------------------------------------------------------------------
-- Reading a node
-- ---------------------------------------------------------------------------

section
variable {β : Type} {ctx : Context β} {c : Component} {entries others : Tree.Entries}

theorem checkShapes_grouped (h : Tree.GroupedEntries (some c) entries others) :
    Agree (· = ·) (fun _ _ => True) (c.checkShapes entries c.fields)
      (c.checkShapes others c.fields) := by
  refine checkShapes_agree congruence_eq fun f hf => ?_
  refine optionRel_imp (h.lookup f.name) fun t u _ hunder => ?_
  rcases hunder.of_field hf with ⟨g, hkept⟩ | ⟨g, v, hs, hobject, hv, rfl⟩
  · exact ⟨hkept.accepts f.shape, fun _ => hkept.mismatch _ _⟩
  · have halone : f.shape.accepts t = true := by simp [hs, Shape.accepts, hobject]
    have harray : f.shape.accepts (.array [v]) = true := by
      simp [hs, Shape.accepts, Shape.isArrayOf, Tree.asArray?, ← hv.isObject, hobject]
    exact ⟨halone.trans harray.symm, fun hrefused => by simp [harray] at hrefused⟩

theorem objects_singleton {t : Tree} (ha : t.isArray = false) (f : Family)
    (types : Instantiation) :
    (ctx.part (.array [t])).objects f types = (ctx.part t).objects f types := by
  rw [objects_part_of_not_array ha]
  change ((ctx.part t).object f types).bind
    (fun d => (Outcome.ofExcept (.ok [])).bind fun ds => .ofExcept (.ok (d :: ds))) = _
  simp only [Outcome.ofExcept_ok_bind]

/-- A tree is read alike whichever objects in it are put into arrays, as one object and as
several. -/
def Context.ReadsGrouped (ctx : Context β) (t : Tree) : Prop :=
  ∀ f u, Tree.Grouped (.family f) t u → ∀ types,
    ((ctx.part t).object f types).result = ((ctx.part u).object f types).result ∧
      ((ctx.part t).objects f types).result = ((ctx.part u).objects f types).result

theorem readField_kept {t u : Tree} {g : Family} (hread : ctx.ReadsGrouped t)
    (h : Tree.Grouped (.family g) t u) (types : Instantiation) (parameter : Parameter) :
    Agree (· = ·) (· = ·) (ctx.readField types parameter (ctx.part t)).result
      (ctx.readField types parameter (ctx.part u)).result := by
  refine readField_agree congruence_eq rfl (fun q _ => ?_) (fun f _ => ?_) (fun f _ => ?_)
    fun _ => ?_
  · rw [ctx.tree_part, ctx.tree_part, Target.convert_grouped h]
    exact .refl (fun _ => rfl) fun _ _ => rfl
  · exact agree_eq.mpr (hread f u (h.family f) types).1
  · rw [List.forall₂_eq_eq_eq]
    exact agree_eq.mpr (hread f u (h.family f) types).2
  · rw [ctx.tree_part, ctx.tree_part]
    exact ⟨h.asText?, h.mismatch _ _⟩

theorem readField_put {t u : Tree} {g : Family} (hread : ctx.ReadsGrouped t)
    (hobject : Shape.isObject t = true) (h : Tree.Grouped (.family g) t u)
    (types : Instantiation) {parameter : Parameter} (hs : parameter.type.shape = .objects g) :
    Agree (· = ·) (· = ·) (ctx.readField types parameter (ctx.part t)).result
      (ctx.readField types parameter (ctx.part (.array [u]))).result := by
  obtain ⟨name, type⟩ := parameter
  cases type with
  | leaf q _ | optionalLeaf q => cases q <;> cases hs
  | factory f | operator => cases hs
  | factories f =>
    obtain rfl := Shape.objects.inj hs
    have ha : u.isArray = false := h.isArray ▸ Shape.isArray_of_isObject hobject
    have hobjects : ((ctx.part t).objects f types).result =
        ((ctx.part (.array [u])).objects f types).result := by
      rw [objects_singleton ha]
      exact (hread f u h types).2
    refine (agree_eq.mpr hobjects).bind ?_
    rintro ds _ - rfl
    exact .ok rfl

theorem fieldAgrees_grouped (h : Tree.GroupedEntries (some c) entries others)
    (hparts : ∀ entry ∈ entries, ctx.ReadsGrouped entry.2) (types : Instantiation) {f : Field}
    (hf : f ∈ c.fields) :
    FieldAgrees ctx ctx (· = ·) (· = ·) c types (ctx.parts entries) (ctx.parts others) f.name := by
  refine fieldAgrees_of_lookup (optionRel_imp (h.lookup f.name) ?_)
  intro t u ht hunder parameter hp
  have hread := hparts _ (mem_of_lookup ht)
  rcases hunder.of_field hf with ⟨g, hkept⟩ | ⟨g, v, hs, hobject, hv, rfl⟩
  · exact readField_kept hread hkept types parameter
  · exact readField_put hread hobject hv types ((Component.shape_of_parameter? hf hp).trans hs)

end

-- ---------------------------------------------------------------------------
-- Trees
-- ---------------------------------------------------------------------------

section
variable {β : Type} {ctx : Context β} (hb : ctx.registry.builders = [])
include hb

theorem dispatch_grouped {kind : Kind} {entries others : Tree.Entries}
    (h : Tree.GroupedEntries (kind.component? (.map entries)) entries others)
    (hparts : ∀ entry ∈ entries, ctx.ReadsGrouped entry.2) (inherited : Instantiation) :
    (ctx.dispatch kind entries (ctx.parts entries) inherited).result =
      (ctx.dispatch kind others (ctx.parts others) inherited).result := by
  have htypes := typeAgrees_grouped h
  rw [← agree_eq]
  refine dispatch_agree congruence_eq (fun _ _ => congrArg _)
    (resolve_agree congruence_eq.error htypes inherited)
    (typeName_agree congruence_eq.error (htypes .type) kind)
    (fun types name name' hname _ _ => ?_) fun types name c hn hfind => ?_
  · subst hname
    rw [readCustom_no_builders hb, readCustom_no_builders hb]
    exact .error rfl
  · rw [component?_of_typeName hn, hfind] at h
    refine readComponent_agree congruence_eq ?_ (checkShapes_grouped h) fun f hf =>
      fieldAgrees_grouped h hparts types hf
    simp only [Component.checkKeys, h.keys]
    exact .refl (fun _ => rfl) fun _ _ => trivial

theorem readsGrouped (t : Tree) : ctx.ReadsGrouped t := by
  induction t using Tree.induction with
  | leaf t ha hm =>
    intro f u h types
    cases h with
    | leaf _ _ => exact ⟨rfl, rfl⟩
    | array _ => cases ha
    | map _ => cases hm
  | array items ih =>
    intro f u h types
    cases h with
    | leaf ha _ => cases ha
    | array each =>
      refine ⟨congrArg Except.error (each.mismatch _ _), ?_⟩
      exact objects_eq_of_array (forall₂_imp (fun item hi u hu => (ih item hi f u hu types).1)
        (each.forall₂ f))
  | map entries ih =>
    intro f u h types
    cases h with
    | leaf _ hm => cases hm
    | @map _ _ others each =>
      have hobject : ((ctx.part (.map entries)).object f types).result =
          ((ctx.part (.map others)).object f types).result := by
        rw [← agree_eq]
        refine (agree_eq.mpr (dispatch_grouped hb each ih types)).bind ?_
        rintro d _ - rfl
        exact .refl (fun _ => rfl) fun _ _ => rfl
      exact ⟨hobject, objects_eq_of_not_array rfl rfl hobject⟩

theorem parse_grouped {kind : Kind} {t u : Tree} (h : Tree.Grouped kind t u)
    (inherited : Instantiation) :
    (ctx.parse kind t inherited).result = (ctx.parse kind u inherited).result := by
  cases h with
  | leaf _ _ => rfl
  | array each => exact congrArg Except.error (each.mismatch _ _)
  | map each => exact dispatch_grouped hb each (fun entry _ => readsGrouped hb entry.2) inherited

end

-- ---------------------------------------------------------------------------
-- Arrays of objects
-- ---------------------------------------------------------------------------

theorem says_array {β : Type} {ctx : Context β} {f : Family} {types : Instantiation}
    {items : List Tree} {ds : List Deferred} :
    ctx.SaysObjects f types (.array items) ds ↔ List.Forall₂ (ctx.SaysObject f types) items ds := by
  constructor
  · rintro (⟨⟨⟩⟩ | ⟨h⟩)
    exact h
  · exact .array

theorem parse_reached_array {β : Type} {ctx : Context β} {kind here : Kind}
    {inherited : Instantiation} {root node : Tree} {above : List Tree} {d : Deferred}
    {path : List (String × Nat)} {c : Component} {f : Field} {g : Family} {items : List Tree}
    (h : (ctx.parse kind root inherited).result = .ok d)
    (hr : Descends kind root path here node above) (hc : NamesComponent here node c)
    (hf : f ∈ c.fields) (hs : f.shape = .objects g)
    (ht : node.find? f.name = some (.array items)) :
    ∃ types params ds, NearestTypes (node :: above) inherited types ∧
      d.at? path = some (.unbound (c.signature types) params) ∧
      params.lookup f.name = some (.factories ds) ∧
      List.Forall₂ (ctx.SaysObject g types) items ds := by
  obtain ⟨around, nested, haround, hnested, hat⟩ := parse_reached_ok h hr
  obtain ⟨types, params, htypes, -, rfl, hshapes, entries, rfl, hread⟩ :=
    parse_ok_unbound hnested hc
  obtain ⟨p, hp, hl⟩ := says_of_readFields hread hf ht (hshapes f hf _ ht)
  obtain ⟨ds, hds, rfl⟩ := (says_objects hs).mp hp
  exact ⟨types, params, ds, haround.cons htypes, hat, hl, says_array.mp hds⟩

/-- Without custom builders a parse gives the same builder or the same error if single objects,
wherever several may be, are put into arrays of their own. Of an array it makes as many builders as
there are elements, each the builder or the registered factory of its element. -/
theorem parse_single_objects {β : Type} (ctx : Context β) (hb : ctx.registry.builders = [])
    (kind : Kind) (tree : Tree) (inherited : Instantiation) :
    (∀ other, Tree.Grouped kind tree other →
      (ctx.parse kind other inherited).result = (ctx.parse kind tree inherited).result) ∧
    ∀ d, (ctx.parse kind tree inherited).result = .ok d →
      ∀ path here node above, Descends kind tree path here node above →
      ∀ c, NamesComponent here node c → ∀ f ∈ c.fields, ∀ g, f.shape = .objects g →
      ∀ items, node.find? f.name = some (.array items) →
        ∃ types params ds, NearestTypes (node :: above) inherited types ∧
          d.at? path = some (.unbound (c.signature types) params) ∧
          params.lookup f.name = some (.factories ds) ∧ ds.length = items.length ∧
          ∀ (k : Nat) item, items[k]? = some item →
            ∃ x, ds[k]? = some x ∧ ctx.SaysObject g types item x := by
  refine ⟨fun other h => (parse_grouped hb h inherited).symm, ?_⟩
  intro d h path here node above hr c hc f hf g hs items ht
  obtain ⟨types, params, ds, htypes, hat, hl, hall⟩ := parse_reached_array h hr hc hf hs ht
  exact ⟨types, params, ds, htypes, hat, hl, hall.length_eq.symm,
    fun k item hi => forall₂_getElem? hall hi⟩

theorem parse_single_objects_nested :
    let stop : Factory := .mk 0 (.reference 0) ⟨.iteration, none, none⟩ []
    let ctx : Context Empty := ⟨⟨[("stop", .factory stop)], []⟩, nofun, .strict⟩
    let cg (criteria : Tree) : Tree :=
      .map [("Type", .text "solver::Cg"), ("criteria", criteria)]
    let combined (criteria : Tree) : Tree :=
      .map [("criteria", criteria), ("Type", .text "stop::Combined")]
    let inner : Tree := combined (.text "stop")
    let inner' : Tree := combined (.array [.text "stop"])
    let outer : Tree := combined (.array [inner, .text "stop"])
    let outer' : Tree := combined (.array [inner', .text "stop"])
    let parsed (t : Tree) := (ctx.parse (.family .linOp) t ⟨.float64, .int32⟩).result
    ctx.registry.builders = [] ∧
      Tree.Grouped (.family .linOp) (cg outer) (cg (.array [outer'])) ∧
      parsed (cg (.array [outer'])) = parsed (cg outer) ∧
      ∃ d params first, parsed (cg outer) = .ok d ∧
        d.at? [("criteria", 0)] = some (.unbound ⟨.combined, none, none⟩ params) ∧
        params.lookup "criteria" = some (.factories [first, .bound stop]) := by
  intro stop ctx cg combined inner inner' outer outer' parsed
  have hname : ∀ s, Tree.Grouped (.family .criterion) (.text s) (.text s) := fun _ => .leaf rfl rfl
  have hcg : Field.criteria ∈ Component.cg.fields := List.mem_cons_self
  have hcombined : Field.criteria ∈ Component.combined.fields := List.mem_cons_self
  have hinner : Tree.Grouped (.family .criterion) inner inner' :=
    .map (.cons (.put hcombined rfl rfl (hname _)) (.cons (.kept (hname _)) .nil))
  have hmixed : Tree.Grouped (.family .criterion) (.array [inner, .text "stop"])
      (.array [inner', .text "stop"]) :=
    .array (.cons hinner (.cons (hname _) .nil))
  have houter : Tree.Grouped (.family .criterion) outer outer' :=
    .map (.cons (.kept hmixed) (.cons (.kept (hname _)) .nil))
  have hroot : Tree.Grouped (.family .linOp) (cg outer) (cg (.array [outer'])) :=
    .map (.cons (.kept (hname _)) (.cons (.put hcg rfl rfl houter) .nil))
  have hsolver : NamesComponent (.family .linOp) (cg outer) .cg := ⟨_, rfl, by decide⟩
  have hnode : NamesComponent (.family .criterion) outer .combined := ⟨_, rfl, by decide⟩
  have hbelow := Descends.field .root hsolver hcg (.inr rfl) rfl
    (rfl : Tree.objectAt? _ 0 = some outer) rfl
  obtain ⟨hsame, hreached⟩ :=
    parse_single_objects ctx rfl (.family .linOp) (cg outer) ⟨.float64, .int32⟩
  obtain ⟨d, hd⟩ : ∃ d, parsed (cg outer) = .ok d := ⟨_, rfl⟩
  obtain ⟨types, params, ds, -, hat, hl, hlength, hall⟩ :=
    hreached d hd _ _ _ _ hbelow _ hnode _ hcombined _ rfl _ rfl
  obtain ⟨first, second, rfl⟩ := List.length_eq_two.mp hlength
  obtain ⟨x, hx, hsays⟩ := hall 1 (.text "stop") rfl
  obtain rfl := Option.some.inj hx
  cases hsays with
  | name registered _ =>
    cases registered
    exact ⟨rfl, hroot, hsame _ hroot, d, params, first, hd, hat, hl⟩

end SolverConfig
