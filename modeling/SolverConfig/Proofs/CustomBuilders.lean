import SolverConfig.Proofs.Errors
import SolverConfig.Proofs.Inheritance

/-!
# Custom builders

A node whose `Type` is the name of a custom builder is handed to that builder as it is, with the
registry and the types in effect, and what the builder returns is taken as it is: at the root it is
the result of the parse, and below a node of a component it counts if it is of the family asked for.
The first failure that a parse comes to, be it of a node, a builder or a look-up, is returned
unchanged through all nodes above.
-/

namespace SolverConfig

-- ---------------------------------------------------------------------------
-- What a parse comes to
-- ---------------------------------------------------------------------------

namespace Context

variable {β : Type} (ctx : Context β)

/-- A node of a component passes its checks, and its fields are read up to one that it has: none of
those before fails. -/
structure ReadsUpTo (here : Kind) (around : Instantiation) (entries : Tree.Entries) (c : Component)
    (types : Instantiation) (f : Field) (t : Tree) : Prop where
  names : NamesComponent here (.map entries) c
  inEffect : TypesInEffect (.map entries) around types
  checked : ∀ e, ¬First (ctx.checks here around (.map entries)) e
  before : ∃ before after, c.fields = before ++ f :: after ∧
    ∀ other ∈ before, ∀ e, ¬ctx.RefusesField c types entries other e
  entry : entries.lookup f.name = some t

/-- The objects in a tree are read up to the one at a position: none of those before fails. -/
structure ObjectsUpTo (g : Family) (types : Instantiation) (t : Tree) (position : Nat)
    (child : Tree) : Prop where
  object : t.objectAt? position = some child
  before : ∀ i < position, ∀ item, t.objectAt? i = some item →
    ∀ e, ¬ctx.RefusesObject g types item e

/-- The nodes and names that a parse of a root comes to: the path to each, the kind that is asked
for there and the types that it inherits. Nothing that is checked or read before fails. -/
inductive Comes (kind : Kind) (root : Tree) (inherited : Instantiation) :
    List (String × Nat) → Kind → Instantiation → Tree → Prop
  | root : Comes kind root inherited [] kind inherited root
  | nested {path : List (String × Nat)} {here : Kind} {around types : Instantiation}
      {entries : Tree.Entries} {c : Component} {f : Field} {t child : Tree} {g : Family}
      {position : Nat} (reached : Comes kind root inherited path here around (.map entries))
      (field : ctx.ReadsUpTo here around entries c types f t)
      (shape : f.shape = .object g ∨ f.shape = .objects g)
      (object : ctx.ObjectsUpTo g types t position child) :
      Comes kind root inherited (path ++ [(f.name, position)]) (.family g) types child

end Context

-- ---------------------------------------------------------------------------
-- Failures
-- ---------------------------------------------------------------------------

theorem isMap_of_find? {node t : Tree} {key : String} (h : node.find? key = some t) :
    node.isMap = true := by
  cases node with
  | map entries => rfl
  | _ => cases h

theorem NearestTypes.unique {above : List Tree} {inherited types types' : Instantiation}
    (h : NearestTypes above inherited types) (h' : NearestTypes above inherited types') :
    types = types' := by
  have hvalue := h.1.unique h'.1 rfl
  have hindex := h.2.unique h'.2 rfl
  cases types
  cases types'
  simp_all

section
variable {β : Type} {ctx : Context β} {here : Kind} {around types : Instantiation}
  {entries : Tree.Entries} {c : Component} {f : Field} {t child : Tree} {e : ConfigError}

theorem Context.ReadsUpTo.mem (h : ctx.ReadsUpTo here around entries c types f t) :
    f ∈ c.fields := by
  obtain ⟨before, after, hfields, -⟩ := h.before
  simp [hfields]

theorem quantity?_of_reference (hf : f ∈ c.fields) (hs : f.shape = .reference) :
    c.quantity? f.name = none := by
  obtain ⟨parameter, hp, hshape⟩ := Option.map_eq_some_iff.mp (Component.shape_parameter? hf)
  rw [quantity?_of_parameter? hp]
  rw [hs] at hshape
  cases ht : parameter.type with
  | leaf q _ | optionalLeaf q =>
    rw [ht] at hshape
    cases q <;> cases hshape
  | _ => rfl

theorem Context.ReadsUpTo.accepts (h : ctx.ReadsUpTo here around entries c types f t) :
    f.shape.accepts t = true := by
  have hno : ∀ e, ¬FieldFault here (.map entries) e :=
    First.forall_not_iff.mpr h.checked _ (by simp [Context.checks])
  exact accepts_of_no_fieldFault hno h.names h.mem h.entry

theorem Context.ReadsUpTo.parse_error (h : ctx.ReadsUpTo here around entries c types f t)
    (he : ctx.Refuses c types f t e) :
    (ctx.parse here (.map entries) around).result = .error e := by
  obtain ⟨before, after, hfields, hread⟩ := h.before
  rw [parse_first, Context.faults, First.append, First.single]
  refine .inr ⟨First.forall_not_iff.mpr h.checked, .field h.names h.inEffect ?_⟩
  rw [hfields, List.map_append, List.map_cons, First.append]
  refine .inr ⟨List.forall_mem_map.mpr hread, .here ⟨t, h.entry, he⟩⟩

theorem readsUpTo_of_parse_ok {d : Deferred}
    (h : (ctx.parse here (.map entries) around).result = .ok d)
    (hc : NamesComponent here (.map entries) c) (hf : f ∈ c.fields)
    (ht : entries.lookup f.name = some t) :
    ∃ types, ctx.ReadsUpTo here around entries c types f t ∧ ∀ e, ¬ctx.Refuses c types f t e := by
  obtain ⟨types, -, htypes, -⟩ := parse_ok_unbound h hc
  have hnone : ∀ F ∈ ctx.faults here around (.map entries), ∀ e, ¬F e := by
    refine First.forall_not_iff.mpr fun e hfirst => ?_
    rw [← parse_first, h] at hfirst
    cases hfirst
  simp only [Context.faults, List.forall_mem_append, List.forall_mem_singleton] at hnone
  obtain ⟨hchecks, hvalue⟩ := hnone
  have hread : ∀ other ∈ c.fields, ∀ e, ¬ctx.RefusesField c types entries other e :=
    List.forall_mem_map.mp
      (First.forall_not_iff.mpr fun e hfirst => hvalue e (.field hc htypes hfirst))
  obtain ⟨before, after, hfields⟩ := List.append_of_mem hf
  refine ⟨types, ⟨hc, htypes, First.forall_not_iff.mp hchecks, ⟨before, after, hfields, ?_⟩, ht⟩,
    fun e he => hread f hf e ⟨t, ht, he⟩⟩
  exact fun other hother => hread other (by simp [hfields, hother])

theorem Context.ObjectsUpTo.refuses {g : Family} {position : Nat}
    (h : ctx.ObjectsUpTo g types t position child) (ha : f.shape.accepts t = true)
    (hs : f.shape = .object g ∨ f.shape = .objects g) (he : ctx.RefusesObject g types child e) :
    ctx.Refuses c types f t e := by
  rcases hs with hs | hs
  · rw [hs] at ha
    obtain ⟨-, rfl⟩ := (objectAt?_of_not_array (Shape.isArray_of_isObject ha)).mp h.object
    exact .object hs he
  · refine .objects hs ?_
    cases halone : t.isArray with
    | false =>
      obtain ⟨-, rfl⟩ := (objectAt?_of_not_array halone).mp h.object
      exact .one halone he
    | true =>
      obtain ⟨items, rfl⟩ := Tree.exists_of_isArray halone
      exact .array (First.of_getElem? h.object h.before he)

theorem Context.ObjectsUpTo.of_not_refuses {g : Family} {position : Nat}
    (hno : ∀ e, ¬ctx.Refuses c types f t e) (ha : f.shape.accepts t = true)
    (hs : f.shape = .object g ∨ f.shape = .objects g) (ho : t.objectAt? position = some child) :
    ctx.ObjectsUpTo g types t position child := by
  induction position using Nat.strongRecOn generalizing child with
  | _ position ih =>
    exact ⟨ho, fun i hi item hitem e he => hno e ((ih i hi hitem).refuses ha hs he)⟩

end

section
variable {β : Type} {ctx : Context β} {kind here : Kind} {root node : Tree}
  {inherited around : Instantiation} {path : List (String × Nat)} {e : ConfigError}

/-- The failure of a node that a parse comes to is the failure of the parse. -/
theorem error_of_comes (h : ctx.Comes kind root inherited path here around node)
    (hm : node.isMap = true) (he : (ctx.parse here node around).result = .error e) :
    (ctx.parse kind root inherited).result = .error e := by
  -- From the node up: what fails below is what the node above fails with.
  induction h with
  | root => exact he
  | nested _ hfield hs hobject ih =>
    obtain ⟨entries, rfl⟩ := Tree.exists_of_isMap hm
    exact ih rfl (hfield.parse_error (hobject.refuses hfield.accepts hs (.node he)))

theorem error_of_refusesField {entries : Tree.Entries} {c : Component} {types : Instantiation}
    {f : Field} {t : Tree} (h : ctx.Comes kind root inherited path here around (.map entries))
    (hfield : ctx.ReadsUpTo here around entries c types f t) (he : ctx.Refuses c types f t e) :
    (ctx.parse kind root inherited).result = .error e :=
  error_of_comes h rfl (hfield.parse_error he)

theorem error_of_refusesObject {g : Family}
    (h : ctx.Comes kind root inherited path (.family g) around node) (hpath : path ≠ [])
    (he : ctx.RefusesObject g around node e) :
    (ctx.parse kind root inherited).result = .error e := by
  cases h with
  | root => exact absurd rfl hpath
  | nested hreached hfield hs hobject =>
    exact error_of_refusesField hreached hfield (hobject.refuses hfield.accepts hs he)

theorem ok_of_comes {d : Deferred} (h : ctx.Comes kind root inherited path here around node)
    (hm : node.isMap = true) (hd : (ctx.parse kind root inherited).result = .ok d) :
    ∃ nested, (ctx.parse here node around).result = .ok nested ∧ d.at? path = some nested := by
  induction h with
  | root => exact ⟨d, hd, rfl⟩
  | nested _ hfield hs hobject ih =>
    obtain ⟨outer, houter, hat⟩ := ih rfl
    obtain ⟨types', nested, htypes, hnested, hstep⟩ :=
      parse_nested_ok houter hfield.names hfield.mem hs hfield.entry hobject.object hm
    obtain rfl := htypes.unique hfield.inEffect
    refine ⟨nested, hnested, ?_⟩
    rw [Deferred.at?_concat, hat]
    exact hstep

theorem comes_of_descends {d : Deferred} {above : List Tree}
    (hd : (ctx.parse kind root inherited).result = .ok d)
    (h : Descends kind root path here node above) :
    ∃ around, NearestTypes above inherited around ∧
      ctx.Comes kind root inherited path here around node := by
  induction h with
  | root => exact ⟨inherited, ⟨rfl, rfl⟩, .root⟩
  | field _ hc hf hs ht ho _ ih =>
    obtain ⟨around, haround, hcomes⟩ := ih
    obtain ⟨entries, rfl⟩ := Tree.exists_of_isMap (isMap_of_find? ht)
    obtain ⟨outer, houter, -⟩ := ok_of_comes hcomes rfl hd
    obtain ⟨types, hfield, hno⟩ := readsUpTo_of_parse_ok houter hc hf ht
    exact ⟨types, haround.cons hfield.inEffect,
      .nested hcomes hfield hs (.of_not_refuses hno hfield.accepts hs ho)⟩

end

-- ---------------------------------------------------------------------------
-- Builders
-- ---------------------------------------------------------------------------

theorem NamesOther.isMap {node : Tree} {s : String} (h : NamesOther node s) :
    node.isMap = true := isMap_of_find? h.1

theorem parse_of_namesOther {β : Type} {ctx : Context β} {f : Family} {node : Tree}
    {inherited types : Instantiation} {s : String} {b : β} (hother : NamesOther node s)
    (hb : ctx.registry.builder? s = some b) (htypes : TypesInEffect node inherited types) :
    ctx.parse (.family f) node inherited = ctx.custom b ctx.registry node types := by
  obtain ⟨entries, rfl⟩ := Tree.exists_of_isMap hother.isMap
  have hname : typeName (.family f) (.map entries) = .ok s ∧ Vocabulary.find? Component s = none :=
    typeName_eq_iff_namesOther.mpr hother
  have hresolve := resolve_ok.mpr htypes
  rw [Context.parse, Context.dispatch, hresolve, hname.1]
  change Outcome.bind (.ofExcept (.ok types)) _ = _
  rw [Outcome.ofExcept_ok_bind]
  change Outcome.bind (.ofExcept (.ok s)) _ = _
  rw [Outcome.ofExcept_ok_bind, hname.2]
  simp only [Context.readCustom, hb]

section
variable {β : Type} {ctx : Context β} {kind : Kind} {root node : Tree}
  {inherited around types : Instantiation} {path : List (String × Nat)} {f : Family} {s : String}
  {b : β} (hother : NamesOther node s) (hb : ctx.registry.builder? s = some b)
  (htypes : TypesInEffect node around types)
include hother hb htypes

theorem refusesObject_of_namesOther {e : ConfigError} :
    ctx.RefusesObject f around node e ↔ (ctx.custom b ctx.registry node types).result = .error e ∨
      ∃ d, (ctx.custom b ctx.registry node types).result = .ok d ∧ d.family ≠ f ∧
        e = .typeMismatch .builder f.name (d.family.name ++ " " ++ d.info.text) := by
  obtain ⟨entries, rfl⟩ := Tree.exists_of_isMap hother.isMap
  rw [← parse_of_namesOther (f := f) hother hb htypes]
  constructor
  · rintro (he | ⟨hd, hf⟩ | _ | _ | ⟨⟨⟩⟩)
    · exact .inl he
    · exact .inr ⟨_, hd, hf, rfl⟩
  · rintro (he | ⟨d, hd, hf, rfl⟩)
    · exact .node he
    · exact .family hd hf

end

/-- A node that names a custom builder is handed to it as it is, with the registry and the types in
effect, and gives what the builder returns. Below nodes of components that is what stands in its
place in the builder of the root; it does not fail if it is of the family asked for, and is a
mismatch of the builder if it is of the other. The first failure that a parse comes to is its
result: an error of a node, be it of a component or of a custom builder, and of a look-up of a
registered factory or operator. -/
theorem parse_custom {β : Type} (ctx : Context β) {f : Family} {node : Tree}
    {around types : Instantiation} {s : String} {b : β} (hother : NamesOther node s)
    (hb : ctx.registry.builder? s = some b) (htypes : TypesInEffect node around types) :
    ctx.parse (.family f) node around = ctx.custom b ctx.registry node types ∧
    ∀ kind root inherited,
      (∀ path above made, (ctx.parse kind root inherited).result = .ok made →
        Descends kind root path (.family f) node above → NearestTypes above inherited around →
        path ≠ [] →
          ∃ d, (ctx.custom b ctx.registry node types).result = .ok d ∧ d.family = f ∧
            made.at? path = some d) ∧
      (∀ path, ctx.Comes kind root inherited path (.family f) around node → path ≠ [] →
        (∀ d, (ctx.custom b ctx.registry node types).result = .ok d → d.family = f →
          ∀ e, ¬ctx.RefusesObject f around node e) ∧
        (∀ d, (ctx.custom b ctx.registry node types).result = .ok d → d.family ≠ f →
          (ctx.parse kind root inherited).result = .error
            (.typeMismatch .builder f.name (d.family.name ++ " " ++ d.info.text))) ∧
        ∀ e, (ctx.custom b ctx.registry node types).result = .error e →
          (ctx.parse kind root inherited).result = .error e) ∧
      ∀ path here inside,
        (∀ other e, ctx.Comes kind root inherited path here inside other → other.isMap = true →
          (ctx.parse here other inside).result = .error e →
            (ctx.parse kind root inherited).result = .error e) ∧
        (∀ g name e, ctx.Comes kind root inherited path (.family g) inside (.text name) →
          path ≠ [] → ctx.registry.factory g name = .error e →
            (ctx.parse kind root inherited).result = .error e) ∧
        ∀ entries c below field name e,
          ctx.Comes kind root inherited path here inside (.map entries) →
          ctx.ReadsUpTo here inside entries c below field (.text name) →
          field.shape = .reference → ctx.registry.operator name = .error e →
            (ctx.parse kind root inherited).result = .error e := by
  refine ⟨parse_of_namesOther hother hb htypes, fun kind root inherited => ⟨?_, ?_, ?_⟩⟩
  · intro path above made hmade hr habove hpath
    obtain ⟨around', haround, hcomes⟩ := comes_of_descends hmade hr
    obtain rfl : around' = around := haround.unique habove
    obtain ⟨d, hd, hat⟩ := ok_of_comes hcomes hother.isMap hmade
    rw [parse_of_namesOther hother hb htypes] at hd
    refine ⟨d, hd, ?_, hat⟩
    by_contra hf
    have herror := error_of_refusesObject hcomes hpath
      ((refusesObject_of_namesOther hother hb htypes).mpr (.inr ⟨d, hd, hf, rfl⟩))
    cases hmade.symm.trans herror
  · intro path h hpath
    have hrefuses := fun e => refusesObject_of_namesOther (e := e) (f := f) hother hb htypes
    refine ⟨fun d hd hf e he => ?_, fun d hd hf => ?_, fun e he => ?_⟩
    · rcases (hrefuses e).mp he with he | ⟨d', hd', hf', -⟩
      · cases hd.symm.trans he
      · cases hd.symm.trans hd'
        exact hf' hf
    · exact error_of_refusesObject h hpath ((hrefuses _).mpr (.inr ⟨d, hd, hf, rfl⟩))
    · exact error_of_refusesObject h hpath ((hrefuses e).mpr (.inl he))
  · intro path here inside
    refine ⟨fun other e h hm he => error_of_comes h hm he, fun g name e h hpath he => ?_, ?_⟩
    · exact error_of_refusesObject h hpath (factory_error.mp he)
    · intro entries c below field name e h hfield hs he
      refine error_of_refusesField h hfield ?_
      exact (refuses_reference hs (quantity?_of_reference hfield.mem hs)).mpr
        (.inl ⟨name, rfl, he⟩)

theorem parse_custom_second :
    let time : Deferred :=
      .unbound ⟨.time, none, none⟩ (Component.time.initialParams ⟨.float64, .int32⟩)
    let custom (works : Bool) (_ : Registry Bool) (_ : Tree) (types : Instantiation) :
        Outcome Deferred :=
      if works then pure time else .ofExcept (.error (.notFound (.other "thing") types.text))
    let ctx : Context Bool := ⟨⟨[], [("Own", true), ("Broken", false)]⟩, custom, .strict⟩
    let own : Tree := .map [("Type", .text "Own"), ("surprise", .empty)]
    let broken : Tree := .map [("IndexType", .text "long"), ("Type", .text "Broken")]
    let combined : Tree.Entries :=
      [("Type", .text "Combined"), ("criteria", .array [own, broken])]
    let root : Tree.Entries := [("Type", .text "solver::Cg"), ("ValueType", .text "float"),
      ("criteria", .array [own, .map combined])]
    ctx.parse (.family .criterion) broken ⟨.float32, .int32⟩ =
        custom false ctx.registry broken ⟨.float32, .int64⟩ ∧
      (ctx.parse (.family .linOp) (.map root) ⟨.float64, .int32⟩).result =
        .error (.notFound (.other "thing") (Instantiation.text ⟨.float32, .int64⟩)) := by
  intro time custom ctx own broken combined root
  have hbroken : NamesOther broken "Broken" := ⟨rfl, fun c => by cases c <;> decide⟩
  have htypes : TypesInEffect broken ⟨.float32, .int32⟩ ⟨.float32, .int64⟩ :=
    ⟨rfl, _, rfl, by decide⟩
  have hsecond : ∀ item types,
      ctx.ObjectsUpTo .criterion types (.array [own, item]) 1 item := by
    refine fun item types => ⟨rfl, fun i hi other hitem e he => ?_⟩
    obtain rfl : i = 0 := Nat.lt_one_iff.mp hi
    cases hitem
    exact nomatch (object_error e).mpr he
  have hcg : ctx.ReadsUpTo (.family .linOp) ⟨.float64, .int32⟩ root .cg ⟨.float32, .int32⟩
      .criteria (.array [own, .map combined]) :=
    { names := ⟨_, rfl, by decide⟩
      inEffect := ⟨⟨_, rfl, by decide⟩, rfl⟩
      checked := fun e h => nomatch examine_error.mpr h
      before := ⟨[], _, rfl, nofun⟩
      entry := rfl }
  have hcombined : ctx.ReadsUpTo (.family .criterion) ⟨.float32, .int32⟩ combined .combined
      ⟨.float32, .int32⟩ .criteria (.array [own, broken]) :=
    { names := ⟨_, rfl, by decide⟩
      inEffect := ⟨rfl, rfl⟩
      checked := fun e h => nomatch examine_error.mpr h
      before := ⟨[], _, rfl, nofun⟩
      entry := rfl }
  have hcomes : ctx.Comes (.family .linOp) (.map root) ⟨.float64, .int32⟩
      [("criteria", 1), ("criteria", 1)] (.family .criterion) ⟨.float32, .int32⟩ broken :=
    .nested (.nested .root hcg (.inr rfl) (hsecond _ _)) hcombined (.inr rfl) (hsecond _ _)
  obtain ⟨hroot, hbelow⟩ := parse_custom ctx (f := .criterion) hbroken rfl htypes
  obtain ⟨-, hplace, -⟩ := hbelow (.family .linOp) (.map root) ⟨.float64, .int32⟩
  exact ⟨hroot, (hplace _ hcomes (List.cons_ne_nil _ _)).2.2 _ rfl⟩

end SolverConfig
