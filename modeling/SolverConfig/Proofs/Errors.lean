import SolverConfig.Proofs.Acceptance
import SolverConfig.Proofs.Descent
import SolverConfig.Proofs.Detection

/-!
# The errors of a parse

Without custom builders a parse fails in few ways. Every mismatch is that of a field or of a
registered object, save for a root that is no map, and whatever is not found is a registered object
that the tree mentions. Readers of objects and operators are never given a tree that they could not
read by its form: the check of the fields has refused it before.
-/

namespace SolverConfig

-- ---------------------------------------------------------------------------
-- Conversions
-- ---------------------------------------------------------------------------

/-- A mismatch of a value, without the field that it is read from. -/
def ConfigError.IsBare (e : ConfigError) : Prop :=
  ∃ expected found, e = .typeMismatch .value expected found

theorem isBare_mismatch (t : Tree) (expected : String) :
    (t.mismatch .value expected).IsBare := ⟨expected, t.describe, rfl⟩

section
variable {t : Tree} {e : ConfigError}

theorem isBare_convert_number {n : Numeric} (h : n.convert t = .error e) : e.IsBare := by
  cases n with
  | integer type =>
    simp only [Numeric.convert] at h
    cases hn : t.asInteger? with
    | none =>
      rw [hn] at h
      cases h
      exact isBare_mismatch ..
    | some n =>
      rw [hn] at h
      dsimp only at h
      split at h
      · cases h
      · cases h
        exact isBare_mismatch ..
  | real p =>
    simp only [Numeric.convert] at h
    cases hx : t.asReal? with
    | none =>
      rw [hx] at h
      cases h
      exact isBare_mismatch ..
    | some x =>
      rw [hx] at h
      dsimp only at h
      split at h
      · cases h
        exact isBare_mismatch ..
      · cases h

theorem isBare_convert_complex {n : Numeric} (h : (Target.complex n).convert t = .error e) :
    e.IsBare := by
  cases t with
  | array items =>
    match items with
    | [re, im] =>
      simp only [Target.convert] at h
      cases hre : n.convert re with
      | error e' =>
        rw [hre] at h
        cases h
        exact isBare_convert_number hre
      | ok x =>
        cases him : n.convert im with
        | error e' =>
          rw [hre, him] at h
          cases h
          exact isBare_convert_number him
        | ok y =>
          rw [hre, him] at h
          cases h
    | [] | [_] | _ :: _ :: _ :: _ =>
      cases h
      exact isBare_mismatch ..
  | map entries =>
    cases h
    exact isBare_mismatch ..
  | _ =>
    simp only [Target.convert] at h
    cases hre : n.convert _ with
    | error e' =>
      rw [hre] at h
      cases h
      exact isBare_convert_number hre
    | ok x =>
      rw [hre] at h
      cases h

theorem isBare_convertChoice {α : Type} [Vocabulary α] (h : convertChoice α t = .error e) :
    e.IsBare := by
  unfold convertChoice at h
  split at h
  · cases h
  · cases h
    exact isBare_mismatch ..

theorem isBare_convert {target : Target} (h : target.convert t = .error e) : e.IsBare := by
  induction target generalizing t e with
  | number n => exact isBare_convert_number h
  | guess | algorithm | baseline => exact isBare_convertChoice h
  | complex n => exact isBare_convert_complex h
  | list target ih =>
    unfold Target.convert at h
    split at h
    · obtain ⟨item, -, hfails⟩ := (mapM_error.mp h).exists_map
      exact ih hfails
    · cases h
      exact isBare_mismatch ..
  | flag | text | duration =>
    unfold Target.convert at h
    repeat' split at h
    all_goals cases h
    all_goals exact isBare_mismatch ..

end

-- ---------------------------------------------------------------------------
-- Below a node
-- ---------------------------------------------------------------------------

section
variable {kind : Kind} {node t child : Tree} {c : Component} {f : Field} {g : Family}
  {position : Nat} {s : String}

theorem isObject_objectAt (hs : f.shape = .object g ∨ f.shape = .objects g)
    (ha : f.shape.accepts t = true) (ho : t.objectAt? position = some child) :
    Shape.isObject child = true := by
  rcases hs with hs | hs
  · rw [hs] at ha
    obtain ⟨-, rfl⟩ := (objectAt?_of_not_array (Shape.isArray_of_isObject ha)).mp ho
    exact ha
  · rw [hs] at ha
    cases t with
    | array items =>
      have hall : ∀ item ∈ items, Shape.isObject item = true := by
        simpa [Shape.accepts, Shape.isObject, Tree.isMap, Tree.asText?, Shape.isArrayOf,
          Tree.asArray?] using ha
      exact hall child (List.mem_of_getElem? ho)
    | _ =>
      obtain ⟨-, rfl⟩ := (objectAt?_of_not_array rfl).mp ho
      simpa [Shape.accepts, Shape.isArrayOf, Tree.asArray?] using ha

theorem names_objectAt (hs : f.shape = .object g ∨ f.shape = .objects g)
    (ha : f.shape.accepts t = true) (ho : t.objectAt? position = some (.text s)) :
    f.shape.Names t position s := by
  rcases hs with hs | hs
  · rw [hs] at ha ⊢
    obtain ⟨rfl, rfl⟩ := (objectAt?_of_not_array (Shape.isArray_of_isObject ha)).mp ho
    exact .object
  · rw [hs]
    exact .objects ho

theorem Shape.Names.of_reference (hs : f.shape = .reference) : f.shape.Names (.text s) 0 s := by
  rw [hs]
  exact .reference

section
variable {path : List (String × Nat)} {here : Kind} {below : Tree} {above : List Tree}
  (hc : NamesComponent kind node c) (hf : f ∈ c.fields)
  (hs : f.shape = .object g ∨ f.shape = .objects g) (ht : node.find? f.name = some t)
  (ho : t.objectAt? position = some child) (hm : child.isMap = true)
include hc hf hs ht ho hm

theorem Descends.nested (h : Descends (.family g) child path here below above) :
    Descends kind node ((f.name, position) :: path) here below (above ++ [node]) := by
  induction h with
  | root => exact .field .root hc hf hs ht ho hm
  | field _ hc' hf' hs' ht' ho' hm' ih => exact .field ih hc' hf' hs' ht' ho' hm'

theorem Mentions.nested {f' : Field} {i : Nat} (h : Mentions (.family g) child path f' i s) :
    Mentions kind node ((f.name, position) :: path) f' i s := by
  obtain ⟨hreached, hc', hf', ht', htext⟩ := h
  exact .intro (hreached.nested hc hf hs ht ho hm) hc' hf' ht' htext

end

end

-- ---------------------------------------------------------------------------
-- Errors of a node
-- ---------------------------------------------------------------------------

/-- The errors that there are for a node that is a map, without custom builders. -/
inductive Context.Reported {β : Type} (ctx : Context β) (kind : Kind) (node : Tree) :
    ConfigError → Prop
  | missing {owner : Owner} {name : String} : Reported ctx kind node (.missingField owner name)
  | field {name expected found : String} :
      Reported ctx kind node (.typeMismatch (.field name) expected found)
  | unknownType {key : TypeKey} {name : String} : Reported ctx kind node (.unknownType key name)
  | unsupported {c : Component} {types : Instantiation} :
      Reported ctx kind node (.unsupported c types)
  | unknownField {c : Component} {key : String} : Reported ctx kind node (.unknownField c key)
  | unregistered {path : List (String × Nat)} {f : Field} {position : Nat} {s : String}
      (mentioned : Mentions kind node path f position s)
      (absent : ctx.registry.objects.lookup s = none) :
      Reported ctx kind node (.notFound .object s)
  | object {path : List (String × Nat)} {f : Field} {position : Nat} {s expected : String}
      {o : Object} (mentioned : Mentions kind node path f position s)
      (registered : ctx.registry.objects.lookup s = some o) :
      Reported ctx kind node (.typeMismatch (.object s) expected o.describe)

section
variable {β : Type} {ctx : Context β} {kind : Kind} {inherited : Instantiation} {node : Tree}
  {e : ConfigError}

theorem reported_of_typeFault {α : Type} [Vocabulary α] {key : TypeKey}
    (h : TypeFault α key node e) : ctx.Reported kind node e := by
  cases h with
  | noText _ _ => exact .field
  | unknown _ _ => exact .unknownType

theorem reported_of_checks (hm : node.isMap = true) :
    ∀ F ∈ ctx.checks kind inherited node, ∀ e, F e → ctx.Reported kind node e := by
  simp only [Context.checks, List.forall_mem_cons]
  refine ⟨?map, fun _ => reported_of_typeFault, fun _ => reported_of_typeFault, ?name, ?lookup,
    ?request, ?types, ?keys, ?fields, List.forall_mem_nil _⟩
  case map =>
    rintro _ ⟨hno⟩
    simp [hm] at hno
  case name =>
    rintro _ (_ | _)
    · exact .field
    · exact .missing
  case lookup =>
    rintro _ ⟨-, -⟩
    exact .unknownType
  case request =>
    rintro _ (_ | _)
    · exact .field
    · exact .field
  case types =>
    rintro _ ⟨-, -, -, -⟩
    exact .unsupported
  case keys =>
    rintro e ⟨-, -, hfirst⟩
    obtain ⟨entry, -, hstrange⟩ := hfirst.exists_map
    obtain ⟨-, -⟩ := hstrange
    exact .unknownField
  case fields =>
    rintro e ⟨-, hfirst⟩
    obtain ⟨f, -, hmisfits⟩ := hfirst.exists_map
    cases hmisfits with
    | absent _ _ => exact .missing
    | misshapen _ _ => exact .field

theorem Context.Reported.nested {t child : Tree} {c : Component} {f : Field} {g : Family}
    {position : Nat} (hc : NamesComponent kind node c) (hf : f ∈ c.fields)
    (hs : f.shape = .object g ∨ f.shape = .objects g) (ht : node.find? f.name = some t)
    (ho : t.objectAt? position = some child) (hm : child.isMap = true)
    (h : ctx.Reported (.family g) child e) : ctx.Reported kind node e := by
  cases h with
  | missing => exact .missing
  | field => exact .field
  | unknownType => exact .unknownType
  | unsupported => exact .unsupported
  | unknownField => exact .unknownField
  | unregistered hmentioned habsent =>
    exact .unregistered (hmentioned.nested hc hf hs ht ho hm) habsent
  | object hmentioned hregistered => exact .object (hmentioned.nested hc hf hs ht ho hm) hregistered

end

-- ---------------------------------------------------------------------------
-- Values
-- ---------------------------------------------------------------------------

/-- Each node among the objects of a tree fails with what is reported for it. -/
def Context.ReportsBelow {β : Type} (ctx : Context β) (t : Tree) : Prop :=
  ∀ position child, t.objectAt? position = some child → child.isMap = true → ∀ g types e,
    (ctx.parse (.family g) child types).result = .error e → ctx.Reported (.family g) child e

section
variable {β : Type} {ctx : Context β} {kind : Kind} {inherited types : Instantiation}
  {e : ConfigError}

section
variable {node t : Tree} {c : Component} {f : Field} (hb : ctx.registry.builders = [])
  (hc : NamesComponent kind node c) (hf : f ∈ c.fields) (ht : node.find? f.name = some t)
  (ha : f.shape.accepts t = true) (hbelow : ctx.ReportsBelow t)
include hb hc hf ht ha hbelow

theorem reported_object {g : Family} {child : Tree} {position : Nat}
    (hs : f.shape = .object g ∨ f.shape = .objects g) (ho : t.objectAt? position = some child)
    (h : ctx.RefusesObject g types child e) : ctx.Reported kind node e := by
  cases h with
  | node hfailed => exact (hbelow position _ ho rfl _ _ _ hfailed).nested hc hf hs ht ho rfl
  | family hparsed hother => exact absurd (family_of_parse_ok hb hparsed) hother
  | unregistered habsent =>
    exact .unregistered (.intro .root hc hf ht (names_objectAt hs ha ho)) habsent
  | object hregistered _ =>
    exact .object (.intro .root hc hf ht (names_objectAt hs ha ho)) hregistered
  | form hno =>
    rw [isObject_objectAt hs ha ho] at hno
    cases hno

theorem reported_field (h : ctx.Refuses c types f t e) : ctx.Reported kind node e := by
  cases h with
  | value _ hfails =>
    obtain ⟨expected, found, rfl⟩ := isBare_convert hfails
    exact .field
  | @object _ g _ hs ho =>
    have hobject : Shape.isObject t = true := by
      rwa [hs] at ha
    have hat : t.objectAt? 0 = some t :=
      (objectAt?_of_not_array (Shape.isArray_of_isObject hobject)).mpr ⟨rfl, rfl⟩
    exact reported_object hb hc hf ht ha hbelow (.inl hs) hat ho
  | objects hs hos =>
    cases hos with
    | one halone ho =>
      have hat : t.objectAt? 0 = some t := (objectAt?_of_not_array halone).mpr ⟨rfl, rfl⟩
      exact reported_object hb hc hf ht ha hbelow (.inr hs) hat ho
    | array hfirst =>
      obtain ⟨item, hitem, ho⟩ := hfirst.exists_map
      obtain ⟨position, hat⟩ := List.mem_iff_getElem?.mp hitem
      exact reported_object hb hc hf ht ha hbelow (.inr hs) hat ho
  | unregistered hs habsent =>
    exact .unregistered (.intro .root hc hf ht (.of_reference hs)) habsent
  | reference hs hregistered _ =>
    exact .object (.intro .root hc hf ht (.of_reference hs)) hregistered
  | form hs hno =>
    rw [hs, Shape.accepts, hno] at ha
    cases ha

end

section
variable {entries : Tree.Entries}

theorem fieldFault_of_misfit {c : Component} {f : Field} {t : Tree}
    (hc : NamesComponent kind (.map entries) c) (hf : f ∈ c.fields)
    (ht : entries.lookup f.name = some t) (ha : f.shape.accepts t = false) :
    ∃ e, FieldFault kind (.map entries) e := by
  obtain ⟨e, hfirst⟩ :=
    First.exists_of_mem (List.mem_map_of_mem hf) (Misfits.misshapen ht ha)
  exact ⟨e, .intro hc hfirst⟩

theorem accepts_of_no_fieldFault {c : Component} {f : Field} {t : Tree}
    (hno : ∀ e, ¬FieldFault kind (.map entries) e) (hc : NamesComponent kind (.map entries) c)
    (hf : f ∈ c.fields) (ht : entries.lookup f.name = some t) : f.shape.accepts t = true := by
  rw [← Bool.not_eq_false]
  intro ha
  obtain ⟨e, hfault⟩ := fieldFault_of_misfit hc hf ht ha
  exact hno e hfault

variable (hb : ctx.registry.builders = [])
include hb

theorem reported_map (hbelow : ∀ entry ∈ entries, ctx.ReportsBelow entry.2)
    (h : (ctx.parse kind (.map entries) inherited).result = .error e) :
    ctx.Reported kind (.map entries) e := by
  rw [parse_first, Context.faults, First.append, First.single] at h
  rcases h with h | ⟨hno, h⟩
  · obtain ⟨F, hF, he⟩ := h.exists_mem
    exact reported_of_checks rfl F hF e he
  · -- Only values are left, so all fields have their shapes.
    cases h with
    | field hc _ hfirst =>
      obtain ⟨f, hf, t, ht, hrefuses⟩ := hfirst.exists_map
      have ha := accepts_of_no_fieldFault (hno _ (by simp [Context.checks])) hc hf ht
      exact reported_field hb hc hf ht ha (hbelow _ (mem_of_lookup ht)) hrefuses
    | builder _ _ hregistered _ _ =>
      rw [Registry.builder?, hb] at hregistered
      cases hregistered

theorem reportsBelow (t : Tree) : ctx.ReportsBelow t := by
  -- An item of an array counts as an object alone, so the hypothesis for it speaks of itself.
  induction t using Tree.induction with
  | leaf t ha hm =>
    intro position child ho hm'
    obtain ⟨-, rfl⟩ := (objectAt?_of_not_array ha).mp ho
    rw [hm] at hm'
    cases hm'
  | array items ih =>
    intro position child ho hm
    have hat : child.objectAt? 0 = some child :=
      (objectAt?_of_not_array (Tree.isArray_of_isMap hm)).mpr ⟨rfl, rfl⟩
    exact ih child (List.mem_of_getElem? ho) 0 child hat hm
  | map entries ih =>
    intro position child ho _ g types e h
    obtain ⟨-, rfl⟩ := (objectAt?_of_not_array rfl).mp ho
    exact reported_map hb ih h

end

end

-- ---------------------------------------------------------------------------
-- Readers
-- ---------------------------------------------------------------------------

/-- The trees that the reader of a parameter cannot read by their form: neither nodes nor names
where objects are read, and no names where operators are. -/
inductive ParameterType.Unreadable : ParameterType → Tree → Prop
  | factory {g : Family} {t : Tree} (noObject : Shape.isObject t = false) :
      Unreadable (.factory g) t
  | factories {g : Family} {t : Tree} (alone : t.isArray = false)
      (noObject : Shape.isObject t = false) : Unreadable (.factories g) t
  | item {g : Family} {items : List Tree} {item : Tree} (mem : item ∈ items)
      (noObject : Shape.isObject item = false) : Unreadable (.factories g) (.array items)
  | operator {t : Tree} (noText : t.asText? = none) : Unreadable .operator t

theorem ParameterType.Unreadable.accepts {type : ParameterType} {t : Tree}
    (h : type.Unreadable t) : type.shape.accepts t = false := by
  cases h with
  | factory hno => exact hno
  | factories halone hno =>
    cases t with
    | array items => cases halone
    | _ => simpa [ParameterType.shape, Shape.accepts, Shape.isArrayOf, Tree.asArray?] using hno
  | item hmem hno =>
    have hexists : ∃ item ∈ _, Shape.isObject item = false := ⟨_, hmem, hno⟩
    simpa [ParameterType.shape, Shape.accepts, Shape.isObject, Tree.isMap, Tree.asText?,
      Shape.isArrayOf, Tree.asArray?] using hexists
  | operator hno => simp [ParameterType.shape, Shape.accepts, hno]

section
variable {β : Type} {ctx : Context β} {kind : Kind} {root : Tree} {inherited : Instantiation}

theorem parse_error_node_iff (hb : ctx.registry.builders = []) {k : Kind}
    {expected found : String} :
    (ctx.parse kind root inherited).result = .error (.typeMismatch (.node k) expected found) ↔
      root.isMap = false ∧ k = kind ∧ expected = "map" ∧ found = root.describe := by
  cases hm : root.isMap with
  | true =>
    obtain ⟨entries, rfl⟩ := Tree.exists_of_isMap hm
    simp only [Bool.true_eq_false, false_and, iff_false]
    intro h
    cases reported_map hb (fun entry _ => reportsBelow hb entry.2) h
  | false =>
    rw [parse_of_not_map hm, Tree.mismatch]
    simp [eq_comm]

theorem first_checks_of_unreadable {node t : Tree} {c : Component} {f : Field}
    {parameter : Parameter} (hm : node.isMap = true) (hc : NamesComponent kind node c)
    (hf : f ∈ c.fields) (hp : c.parameter? f.name = some parameter)
    (ht : node.find? f.name = some t) (h : parameter.type.Unreadable t) :
    ∃ e, First (ctx.checks kind inherited node) e := by
  obtain ⟨entries, rfl⟩ := Tree.exists_of_isMap hm
  have ha : f.shape.accepts t = false := by
    rw [← Component.shape_of_parameter? hf hp]
    exact h.accepts
  obtain ⟨e, hfault⟩ := fieldFault_of_misfit hc hf ht ha
  exact First.exists_of_mem (by simp [Context.checks]) hfault

end

/-- The errors of a parse without custom builders. No index is out of range and no name is repeated;
what is not found is an unregistered object that the tree mentions; mismatches are those of fields
and of registered objects, never of a bare value or of a builder, save that a root is reported to be
no map, and that exactly if it is none; and no node with a tree that a reader could not read by its
form comes to be read. -/
theorem parse_errors {β : Type} (ctx : Context β) (hb : ctx.registry.builders = []) (kind : Kind)
    (root : Tree) (inherited : Instantiation) :
    (∀ e, (ctx.parse kind root inherited).result = .error e →
      (∀ index length, e ≠ .outOfRange index length) ∧ (∀ space s, e ≠ .duplicateName space s) ∧
      (∀ space s, e = .notFound space s → space = .object ∧
        ctx.registry.objects.lookup s = none ∧
        ∃ path f position, Mentions kind root path f position s) ∧
      ∀ subject expected found, e = .typeMismatch subject expected found →
        subject ≠ .value ∧ subject ≠ .builder ∧
          ((∃ name, subject = .field name) ∨ (∃ name, subject = .object name) ∨
            subject = .node kind)) ∧
    (∀ k expected found,
      (ctx.parse kind root inherited).result = .error (.typeMismatch (.node k) expected found) ↔
        root.isMap = false ∧ k = kind ∧ expected = "map" ∧ found = root.describe) ∧
    ∀ here entries around c f parameter t, NamesComponent here (.map entries) c → f ∈ c.fields →
      c.parameter? f.name = some parameter → entries.lookup f.name = some t →
      parameter.type.Unreadable t →
        ∃ e, First (ctx.checks here around (.map entries)) e ∧
          ∀ parts, (ctx.dispatch here entries parts around).result = .error e := by
  refine ⟨?_, fun _ _ _ => parse_error_node_iff hb, ?_⟩
  · intro e he
    cases hm : root.isMap with
    | false =>
      obtain rfl := Except.error.inj ((parse_of_not_map hm).symm.trans he)
      refine ⟨nofun, nofun, nofun, ?_⟩
      rintro _ _ _ ⟨⟩
      exact ⟨nofun, nofun, .inr (.inr rfl)⟩
    | true =>
      obtain ⟨entries, rfl⟩ := Tree.exists_of_isMap hm
      cases reported_map hb (fun entry _ => reportsBelow hb entry.2) he with
      | unregistered hmentioned habsent =>
        refine ⟨nofun, nofun, ?_, nofun⟩
        rintro _ _ ⟨⟩
        exact ⟨rfl, habsent, _, _, _, hmentioned⟩
      | field =>
        refine ⟨nofun, nofun, nofun, ?_⟩
        rintro _ _ _ ⟨⟩
        exact ⟨nofun, nofun, .inl ⟨_, rfl⟩⟩
      | object _ _ =>
        refine ⟨nofun, nofun, nofun, ?_⟩
        rintro _ _ _ ⟨⟩
        exact ⟨nofun, nofun, .inr (.inl ⟨_, rfl⟩)⟩
      | _ => exact ⟨nofun, nofun, nofun, nofun⟩
  · intro here entries around c f parameter t hc hf hp ht h
    obtain ⟨e, hfirst⟩ := first_checks_of_unreadable rfl hc hf hp ht h
    exact ⟨e, hfirst, dispatch_error_of_examine (examine_error.mpr hfirst)⟩

theorem parse_errors_unregistered :
    let bicg : Tree := .map [("Type", .text "solver::Bicg"), ("criteria", .array
      [.map [("Type", .text "Iteration"), ("max_iters", .integer 5)], .text "residual"])]
    let root : Tree := .map [("criteria", .map [("Type", .text "Time")]), ("preconditioner", bicg)]
    let ctx : Context Empty := .bare .lenient
    ctx.registry.builders = [] ∧
      (ctx.parse (.component .cg) root ⟨.float32, .void⟩).result =
        .error (.notFound .object "residual") ∧
      ∃ path f position, Mentions (.component .cg) root path f position "residual" := by
  intro bicg root ctx
  have he : (ctx.parse (.component .cg) root ⟨.float32, .void⟩).result =
      .error (.notFound .object "residual") := rfl
  obtain ⟨hcases, -, -⟩ := parse_errors ctx rfl (.component .cg) root ⟨.float32, .void⟩
  obtain ⟨-, -, hfound, -⟩ := hcases _ he
  exact ⟨rfl, he, (hfound _ _ rfl).2.2⟩

end SolverConfig
