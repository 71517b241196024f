import SolverConfig.Factory.Equality
import SolverConfig.Proofs.Reading
import SolverConfig.Proofs.Trees

/-!
# Parsing twice

Parsing is a function, so two parses of one tree can only differ where a builder differs from
itself. That is so exactly if the tree holds a real that is not a number: such a real becomes a
parameter, and no builder that has one equals any other.
-/

namespace SolverConfig

inductive Tree.HoldsNaN : Tree → Prop
  | real {x : Double} (nan : x.isNaN = true) : HoldsNaN (.real x)
  | item {items : List Tree} {t : Tree} (mem : t ∈ items) (nan : HoldsNaN t) :
      HoldsNaN (.array items)
  | entry {entries : Tree.Entries} {key : String} {t : Tree} (found : entries.lookup key = some t)
      (nan : HoldsNaN t) : HoldsNaN (.map entries)

namespace Tree

@[simp] theorem holdsNaN_real {x : Double} : (Tree.real x).HoldsNaN ↔ x.isNaN = true := by
  constructor
  · rintro ⟨h⟩
    exact h
  · exact .real

@[simp] theorem holdsNaN_array {items : List Tree} :
    (Tree.array items).HoldsNaN ↔ ∃ t ∈ items, t.HoldsNaN := by
  constructor
  · rintro (_ | ⟨ht, h⟩)
    exact ⟨_, ht, h⟩
  · rintro ⟨t, ht, h⟩
    exact .item ht h

theorem holdsNaN_map {entries : Entries} :
    (Tree.map entries).HoldsNaN ↔ ∃ key t, entries.lookup key = some t ∧ t.HoldsNaN := by
  constructor
  · rintro (_ | _ | ⟨ht, h⟩)
    exact ⟨_, _, ht, h⟩
  · rintro ⟨key, t, ht, h⟩
    exact .entry ht h

theorem not_holdsNaN_boolean {b : Bool} : ¬ (Tree.boolean b).HoldsNaN := nofun

theorem not_holdsNaN_integer {n : Int64} : ¬ (Tree.integer n).HoldsNaN := nofun

theorem not_holdsNaN_text {s : String} : ¬ (Tree.text s).HoldsNaN := nofun

end Tree

-- ---------------------------------------------------------------------------
-- Lists of parts
-- ---------------------------------------------------------------------------

theorem isEqv_self {α : Type} {r : α → α → Bool} {as : List α} :
    as.isEqv as r = true ↔ ∀ a ∈ as, r a a = true := by
  induction as with
  | nil => simp
  | cons a rest ih => rw [List.forall_mem_cons, ← ih, List.isEqv, Bool.and_eq_true]

-- ---------------------------------------------------------------------------
-- Values
-- ---------------------------------------------------------------------------

theorem Numeric.same_zero (n : Numeric) : n.same n.zero n.zero = true := by
  cases n with
  | integer t => exact beq_self_eq_true _
  | real p => simp [Numeric.same, Numeric.zero, Binary.same_self]

theorem Numeric.same_convert {n : Numeric} {t : Tree} {v : n.Carrier} (h : n.convert t = .ok v) :
    n.same v v = true ↔ ¬ t.HoldsNaN := by
  cases n with
  | integer type =>
    cases t with
    | integer m => exact iff_of_true (beq_self_eq_true _) Tree.not_holdsNaN_integer
    | _ => cases h
  | real p =>
    have hsame : ∀ x : Double, t.asReal? = some x → v = p.ofDouble x := by
      intro x hx
      simp only [Numeric.convert, hx] at h
      split at h
      · cases h
      · exact (Except.ok.inj h).symm
    cases t with
    | integer m =>
      rw [hsame _ rfl]
      simp [Numeric.same, Binary.same_self, Tree.not_holdsNaN_integer]
    | real x =>
      rw [hsame _ rfl]
      simp [Numeric.same, Binary.same_self]
    | _ => cases h

theorem Target.same_convert_leaf {n : Numeric} {t : Tree} {v : Complex n.Carrier}
    (h : ((n.convert t).map fun re => (⟨re, n.zero⟩ : Complex n.Carrier)) = .ok v) :
    (Target.complex n).same v v = true ↔ ¬ t.HoldsNaN := by
  obtain ⟨re, hre, rfl⟩ := map_ok.mp h
  rw [← Numeric.same_convert hre, Target.same, Bool.and_eq_true]
  exact and_iff_left n.same_zero

theorem Target.same_convert_complex {n : Numeric} {t : Tree} {v : Complex n.Carrier}
    (h : (Target.complex n).convert t = .ok v) :
    (Target.complex n).same v v = true ↔ ¬ t.HoldsNaN := by
  cases t with
  | array items =>
    -- An array has to hold the two parts; what is no array is the real part alone.
    rcases items with _ | ⟨re, _ | ⟨im, _ | _⟩⟩
    · cases h
    · cases h
    · simp only [Target.convert] at h
      cases hre : n.convert re with
      | error e =>
        rw [hre] at h
        cases h
      | ok x =>
        cases him : n.convert im with
        | error e =>
          rw [hre, him] at h
          cases h
        | ok y =>
          rw [hre, him] at h
          obtain rfl := Except.ok.inj h
          rw [Target.same, Bool.and_eq_true, Numeric.same_convert hre, Numeric.same_convert him]
          simp
    · cases h
  | map entries => cases h
  | _ =>
    apply Target.same_convert_leaf
    rw [← h, Target.convert]
    · cases n.convert _ <;> rfl
    all_goals nofun

/-- A converted value equals itself unless something in its tree is not a number. -/
theorem Target.same_convert {u : Target} {t : Tree} {v : u.Carrier} (h : u.convert t = .ok v) :
    u.same v v = true ↔ ¬ t.HoldsNaN := by
  induction u generalizing t with
  | number n => exact Numeric.same_convert h
  | complex n => exact Target.same_convert_complex h
  | list u ih =>
    cases t with
    | array items =>
      have hall := mapM_ok.mp h
      rw [Target.same, isEqv_self, Tree.holdsNaN_array,
        forall_mem_iff_of_forall₂ hall fun item _ v hv => ih hv]
      simp
    | _ => cases h
  | flag =>
    cases t with
    | boolean b => exact iff_of_true (beq_self_eq_true _) Tree.not_holdsNaN_boolean
    | _ => cases h
  | text =>
    cases t with
    | text s => exact iff_of_true (beq_self_eq_true _) Tree.not_holdsNaN_text
    | _ => cases h
  | duration =>
    cases t with
    | integer m => exact iff_of_true (beq_self_eq_true _) Tree.not_holdsNaN_integer
    | _ => cases h
  | guess | algorithm | baseline =>
    cases t with
    | text s => exact iff_of_true (beq_self_eq_true _) Tree.not_holdsNaN_text
    | _ => cases h

-- ---------------------------------------------------------------------------
-- Builders
-- ---------------------------------------------------------------------------

theorem Param.sameAll_self {params : Params Deferred} :
    Param.sameAll params params = true ↔ ∀ entry ∈ params, entry.2.same entry.2 = true := by
  induction params with
  | nil => simp [Param.sameAll]
  | cons entry rest ih =>
    obtain ⟨name, p⟩ := entry
    rw [List.forall_mem_cons, ← ih, Param.sameAll, beq_self_eq_true, Bool.true_and,
      Bool.and_eq_true]

theorem Deferred.sameAll_self {ds : List Deferred} :
    Deferred.sameAll ds ds = true ↔ ∀ d ∈ ds, d.same d = true := by
  induction ds with
  | nil => simp [Deferred.sameAll]
  | cons d rest ih => rw [List.forall_mem_cons, ← ih, Deferred.sameAll, Bool.and_eq_true]

theorem Deferred.same_unbound {s : Signature} {params : Params Deferred} :
    (Deferred.unbound s params).same (.unbound s params) = true ↔
      ∀ entry ∈ params, entry.2.same entry.2 = true := by
  rw [Deferred.same, beq_self_eq_true, Bool.true_and, Param.sameAll_self]

theorem Deferred.same_bound {f : Factory} : (Deferred.bound f).same (.bound f) = true :=
  beq_self_eq_true f

-- ---------------------------------------------------------------------------
-- Initial values
-- ---------------------------------------------------------------------------

def Parameter.InitialSame (types : Instantiation) (p : Parameter) : Prop :=
  (p.type.initial types).same (p.type.initial types) = true

namespace Parameter

variable {types : Instantiation} {name : String}

@[simp] theorem initialSame_leaf {q : Quantity}
    {initial : (i : Instantiation) → (q.target i).Carrier} :
    InitialSame types ⟨name, .leaf q initial⟩ ↔
      (q.target types).same (initial types) (initial types) = true :=
  Iff.of_eq (congrArg (· = true) (Target.sameAcross_self ..))

@[simp] theorem initialSame_optionalLeaf {q : Quantity} :
    InitialSame types ⟨name, .optionalLeaf q⟩ := rfl

@[simp] theorem initialSame_operator : InitialSame types ⟨name, .operator⟩ := rfl

@[simp] theorem initialSame_factory : InitialSame types (.factory name) := rfl

@[simp] theorem initialSame_criteria : InitialSame types .criteria := rfl

@[simp] theorem initialSame_initialGuess : InitialSame types .initialGuess :=
  initialSame_leaf.mpr rfl

@[simp] theorem initialSame_flag : InitialSame types (.flag name) := initialSame_leaf.mpr rfl

@[simp] theorem initialSame_natural {t : IntegerType} {n : Nat} :
    InitialSame types (.natural name t n) :=
  initialSame_leaf.mpr (beq_self_eq_true (n : Int))

@[simp] theorem initialSame_rounded {x : Double} :
    InitialSame types (.rounded name x) ↔ x.isNaN = false := by
  simp [Parameter.rounded, Target.same, Numeric.same, Binary.same_self]

end Parameter

theorem ValueType.same_one (v : ValueType) : v.target.same v.one v.one = true := by
  cases v <;> simp [ValueType.target, ValueType.one, Target.same, Numeric.same, Binary.same_self]

theorem initialSame_parameters (c : Component) (types : Instantiation) :
    ∀ p ∈ c.parameters, p.InitialSame types := by
  cases c with
  | time =>
    rw [Component.parameters, List.forall_mem_singleton]
    exact Parameter.initialSame_leaf.mpr (beq_self_eq_true (10000000000 : Nat))
  | _ =>
    simp [Component.parameters, Component.krylovParameters, ValueType.same_one, Target.same,
      Numeric.same, Binary.same_self]

-- ---------------------------------------------------------------------------
-- Parameter sets
-- ---------------------------------------------------------------------------

theorem names_assign {params : Params Deferred} {name : String} {p : Param Deferred} :
    (params.assign name p).map Prod.fst = params.map Prod.fst := by
  rw [Params.assign, List.map_map]
  rfl

section
variable {β : Type} {ctx : Context β} {c : Component} {types : Instantiation}
  {parts : List (String × Part)} {names : List String} {params params' : Params Deferred}

theorem names_readFields (h : (ctx.readFields c types parts names params).result = .ok params') :
    params'.map Prod.fst = params.map Prod.fst := by
  induction names generalizing params with
  | nil =>
    cases h
    rfl
  | cons name rest ih =>
    rcases readFields_cons_ok.mp h with ⟨_, _, p, -, -, -, h⟩ | ⟨-, h⟩
    · rw [ih h, names_assign]
    · exact ih h

theorem mem_readFields {entry : String × Param Deferred}
    (h : (ctx.readFields c types parts names (c.initialParams types)).result = .ok params)
    (he : entry ∈ params) :
    ∃ f ∈ c.fields, f.name = entry.1 ∧ params.lookup f.name = some entry.2 := by
  have hnames : params.map Prod.fst = c.parameters.map Parameter.name := by
    rw [names_readFields h, Component.initialParams, List.map_map]
    rfl
  have hperm : (params.map Prod.fst).Perm (c.fields.map Field.name) :=
    hnames ▸ c.names_parameters_perm
  obtain ⟨f, hf, hname⟩ := List.mem_map.mp (hperm.mem_iff.mp (List.mem_map_of_mem he))
  refine ⟨f, hf, hname, ?_⟩
  rw [hname]
  exact lookup_of_mem (hperm.nodup_iff.mpr c.nodup_names_fields) he

end

-- ---------------------------------------------------------------------------
-- Trees
-- ---------------------------------------------------------------------------

section
variable {β : Type} {ctx : Context β} {f : Family} {types : Instantiation} {t : Tree}

/-- What is said by a tree equals itself unless something in the tree is not a number. -/
def Context.ReflectsNaN (ctx : Context β) (t : Tree) : Prop :=
  ∀ f types, (∀ d, ctx.SaysObject f types t d → (d.same d = true ↔ ¬ t.HoldsNaN)) ∧
    ∀ ds, ctx.SaysObjects f types t ds → ((∀ d ∈ ds, d.same d = true) ↔ ¬ t.HoldsNaN)

theorem reflectsNaN_of_not_array (ha : t.isArray = false)
    (h : ∀ f types d, ctx.SaysObject f types t d → (d.same d = true ↔ ¬ t.HoldsNaN)) :
    ctx.ReflectsNaN t := by
  refine fun f types => ⟨h f types, ?_⟩
  rintro _ (hd | _)
  · rw [List.forall_mem_singleton]
    exact h f types _ hd
  · cases ha

theorem reflectsNaN_leaf (ha : t.isArray = false) (hm : t.isMap = false) : ctx.ReflectsNaN t := by
  refine reflectsNaN_of_not_array ha fun f types d hd => ?_
  cases hd with
  | node _ _ => cases hm
  | name _ _ => exact iff_of_true Deferred.same_bound Tree.not_holdsNaN_text

theorem reflectsNaN_array {items : List Tree} (h : ∀ item ∈ items, ctx.ReflectsNaN item) :
    ctx.ReflectsNaN (.array items) := by
  refine fun f types => ⟨nofun, ?_⟩
  rintro ds (⟨⟨⟩⟩ | hds)
  rw [forall_mem_iff_of_forall₂ hds fun item hi d hd => (h item hi f types).1 d hd]
  simp

theorem Context.Says.same {c : Component} {field : Field} {p : Param Deferred}
    (h : ctx.ReflectsNaN t) (hp : ctx.Says c types field t p) : p.same p = true ↔ ¬ t.HoldsNaN := by
  cases hp with
  | value _ _ _ hv =>
    rw [Param.same, Target.sameAcross_self]
    exact Target.same_convert hv
  | object _ hd =>
    rw [Param.same]
    exact (h _ _).1 _ hd
  | objects _ hds =>
    rw [Param.same, Deferred.sameAll_self]
    exact (h _ _).2 _ hds
  | reference _ _ => exact iff_of_true (beq_self_eq_true _) Tree.not_holdsNaN_text

/-- Every entry of a node that is parsed strictly is a text or under a field. -/
theorem field_of_holdsNaN {kind : Kind} {inherited : Instantiation} {entries : Tree.Entries}
    {c : Component} {key : String} (hc : NamesComponent kind (.map entries) c)
    (htypes : TypesInEffect (.map entries) inherited types) (hk : c.knows key = true)
    (ht : entries.lookup key = some t) (hn : t.HoldsNaN) : ∃ f ∈ c.fields, key = f.name := by
  rcases knows_ok.mp hk with ⟨k, rfl⟩ | hfield
  · exfalso
    have hfind : Tree.find? (.map entries) k.text = some t := ht
    have htext : ∃ s, t = .text s := by
      cases k with
      | type =>
        rw [NamesComponent, hfind] at hc
        exact hc.imp fun _ h => h.1
      | valueType =>
        have h := htypes.1
        rw [InEffect, hfind] at h
        exact h.imp fun _ h => h.1
      | indexType =>
        have h := htypes.2
        rw [InEffect, hfind] at h
        exact h.imp fun _ h => h.1
    obtain ⟨s, rfl⟩ := htext
    exact Tree.not_holdsNaN_text hn
  · exact hfield

/-- A node equals itself unless something in it is not a number, if that is so of the objects nested
in it. -/
theorem same_of_parse_map {kind : Kind} {inherited : Instantiation} {entries : Tree.Entries}
    {d : Deferred} (hs : ctx.strictness = .strict) (hb : ctx.registry.builders = [])
    (h : ∀ entry ∈ entries, ctx.ReflectsNaN entry.2)
    (hd : (ctx.parse kind (.map entries) inherited).result = .ok d) :
    d.same d = true ↔ ¬ (Tree.map entries).HoldsNaN := by
  obtain ⟨c, hc⟩ := namesComponent_of_parse_ok hb hd
  obtain ⟨types, params, htypes, -, -, hkeys, hshapes, hread, rfl⟩ := (parse_component_ok hc).mp hd
  have hsays : ∀ f ∈ c.fields, ∀ t, entries.lookup f.name = some t →
      ∃ p, params.lookup f.name = some p ∧ (p.same p = true ↔ ¬ t.HoldsNaN) := by
    intro f hf t ht
    obtain ⟨p, hp, hl⟩ := says_of_readFields hread hf ht ((hshapes f hf).2 t ht)
    exact ⟨p, hl, hp.same (h _ (mem_of_lookup ht))⟩
  rw [Deferred.same_unbound]
  constructor
  · -- No key is unknown, so what is not a number stands under a field and has been read.
    intro hsame hmap
    obtain ⟨key, t, ht, hn⟩ := Tree.holdsNaN_map.mp hmap
    obtain ⟨f, hf, rfl⟩ := field_of_holdsNaN hc htypes (hkeys hs _ (mem_of_lookup ht)) ht hn
    obtain ⟨p, hl, hp⟩ := hsays f hf t ht
    exact hp.mp (hsame _ (mem_of_lookup hl)) hn
  · intro hn entry he
    obtain ⟨f, hf, -, hl⟩ := mem_readFields hread he
    cases ht : entries.lookup f.name with
    | some t =>
      obtain ⟨p, hl', hp⟩ := hsays f hf t ht
      cases hl.symm.trans hl'
      exact hp.mpr fun hnt => hn (.entry ht hnt)
    | none =>
      -- Nothing is read here, and initial values are numbers.
      rw [initial_of_readFields hread ht, lookup_initialParams, Option.map_eq_some_iff] at hl
      obtain ⟨p, hp, hl⟩ := hl
      rw [← hl]
      exact initialSame_parameters c types p (List.mem_of_find?_eq_some hp)

theorem reflectsNaN (hs : ctx.strictness = .strict) (hb : ctx.registry.builders = []) (t : Tree) :
    ctx.ReflectsNaN t := by
  induction t using Tree.induction with
  | leaf t ha hm => exact reflectsNaN_leaf ha hm
  | array items ih => exact reflectsNaN_array ih
  | map entries ih =>
    refine reflectsNaN_of_not_array rfl fun f types d hd => ?_
    cases hd with
    | node hd _ => exact same_of_parse_map hs hb ih hd

end

/-- Two strict parses of a tree without custom builders give equal builders unless a real of the
tree is not a number, and then they do not. -/
theorem parse_twice_same {β : Type} (ctx : Context β) (hs : ctx.strictness = .strict)
    (hb : ctx.registry.builders = []) {kind : Kind} {tree : Tree} {inherited : Instantiation}
    {a b : Deferred} (hfirst : (ctx.parse kind tree inherited).result = .ok a)
    (hsecond : (ctx.parse kind tree inherited).result = .ok b) :
    a.same b = true ↔ ¬ tree.HoldsNaN := by
  obtain rfl : a = b := Except.ok.inj (hfirst.symm.trans hsecond)
  obtain ⟨entries, rfl⟩ := isMap_of_parse_ok hfirst
  exact same_of_parse_map hs hb (fun entry _ => reflectsNaN hs hb entry.2) hfirst

theorem parse_twice_same_infinite :
    let tree : Tree := .map [("Type", .text "Combined"), ("criteria",
      .map [("Type", .text "ResidualNorm"), ("reduction_factor", .real (.infinite false))])]
    ∃ d, ((Context.bare .strict).parse (.family .criterion) tree ⟨.float64, .int32⟩).result =
        .ok d ∧
      d.same d = true ∧ ¬ tree.HoldsNaN := by
  intro tree
  have h := parse_twice_same (.bare .strict) rfl rfl
    (rfl : ((Context.bare .strict).parse (.family .criterion) tree ⟨.float64, .int32⟩).result =
      .ok _) rfl
  exact ⟨_, rfl, rfl, h.mp rfl⟩

/-- A tolerance that is not a number makes builders that differ. -/
theorem parse_twice_differs :
    let tree : Tree := .map [("Type", .text "ResidualNorm"), ("reduction_factor", .real .nan)]
    ∃ a b,
      ((Context.bare .strict).parse (.family .criterion) tree ⟨.float64, .int32⟩).result = .ok a ∧
      ((Context.bare .strict).parse (.family .criterion) tree ⟨.float64, .int32⟩).result = .ok b ∧
      a.same b = false :=
  ⟨_, _, rfl, rfl, rfl⟩

end SolverConfig
