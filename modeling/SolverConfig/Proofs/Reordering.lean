import SolverConfig.Proofs.Values

/-!
# Parsing equal trees

Equal trees are parsed to equal builders or fail in the same way, in whatever order their maps hold
their entries. The order shows only in which of several unknown fields an error names.
-/

namespace SolverConfig

-- ---------------------------------------------------------------------------
-- Shapes
-- ---------------------------------------------------------------------------

section
variable {exact : Prop} {t u : Tree} (h : t.Alike exact u)
include h

theorem isLeaf_alike : t.isLeaf = u.isLeaf := by
  cases h.parts <;> rfl

theorem isObject_alike : Shape.isObject t = Shape.isObject u := by
  cases h.parts <;> rfl

theorem isArrayOf_alike {p : Tree → Bool} (hp : ∀ {t u : Tree}, t.Alike exact u → p t = p u) :
    Shape.isArrayOf p t = Shape.isArrayOf p u := by
  cases h.parts with
  | array each => exact Shape.isArrayOf_congr (each.imp fun _ _ hitem => hp hitem)
  | _ => rfl

theorem accepts_alike (s : Shape) : s.accepts t = s.accepts u :=
  Shape.accepts_congr (isLeaf_alike h) (isObject_alike h) h.asText?
    (isArrayOf_alike h isLeaf_alike) (isArrayOf_alike h isObject_alike) s

end

-- ---------------------------------------------------------------------------
-- Builders
-- ---------------------------------------------------------------------------

def Deferred.Alike (d d' : Deferred) : Prop := d.same d' = true

theorem Deferred.Alike.signature_eq {d d' : Deferred} (h : d.Alike d') :
    d.signature = d'.signature := by
  cases d with
  | unbound s params =>
    cases d' with
    | unbound s' params' => exact beq_iff_eq.mp (Bool.and_eq_true_iff.mp h).1
    | bound f' => cases h
  | bound f =>
    cases d' with
    | unbound s' params' => cases h
    | bound f' => rw [beq_iff_eq.mp h]

theorem Deferred.sameAll_iff {ds ds' : List Deferred} :
    Deferred.sameAll ds ds' = true ↔ List.Forall₂ (fun d d' => d.same d' = true) ds ds' := by
  induction ds generalizing ds' with
  | nil => cases ds' <;> simp [Deferred.sameAll]
  | cons d rest ih => cases ds' <;> simp [Deferred.sameAll, ih]

theorem Param.sameAll_iff {params params' : Params Deferred} :
    Param.sameAll params params' = true ↔
      ParamsRel (fun p p' => p.same p' = true) params params' := by
  unfold ParamsRel
  induction params generalizing params' with
  | nil => cases params' <;> simp [Param.sameAll]
  | cons entry rest ih =>
    cases params' with
    | nil => simp [Param.sameAll]
    | cons entry' rest' => simp [Param.sameAll, ih, and_assoc]

theorem paramsRel_initialParams (c : Component) (types : Instantiation) :
    ParamsRel (fun p p' => p.same p' = true) (c.initialParams types) (c.initialParams types) := by
  refine List.forall₂_same.mpr fun entry he => ⟨rfl, ?_⟩
  obtain ⟨p, hp, rfl⟩ := List.mem_map.mp he
  exact initialSame_parameters c types p hp

theorem congruence_alike (exact : Prop) :
    Congruence (ConfigError.Alike exact) (fun p p' => p.same p' = true) Deferred.Alike where
  error := .refl
  inField _ _ name h := h.inField name
  operator _ := beq_self_eq_true _
  factory _ _ h := h
  factories _ _ h := Deferred.sameAll_iff.mpr h
  initial := paramsRel_initialParams
  unbound s _ _ h := Bool.and_eq_true_iff.mpr ⟨beq_self_eq_true s, Param.sameAll_iff.mpr h⟩

theorem intoFamily_alike {exact : Prop} {d d' : Deferred} (h : d.Alike d') (f : Family) :
    Agree (ConfigError.Alike exact) Deferred.Alike (d.intoFamily f) (d'.intoFamily f) := by
  have hfamily : d.family = d'.family := congrArg Signature.family h.signature_eq
  have hinfo : d.info = d'.info := congrArg Signature.info h.signature_eq
  rw [Deferred.intoFamily, Deferred.intoFamily, hfamily, hinfo]
  by_cases hf : d'.family = f
  · rw [if_pos hf, if_pos hf]
    exact .ok h
  · rw [if_neg hf, if_neg hf]
    exact .error (.refl _)

-- ---------------------------------------------------------------------------
-- Stages of a node
-- ---------------------------------------------------------------------------

section
variable {exact : Prop} {entries others : Tree.Entries}

theorem typeText_alike {t u : Tree} (h : t.Alike exact u) (key : TypeKey) :
    Agree (ConfigError.Alike exact) (· = ·) (typeText key t) (typeText key u) := by
  rw [typeText, typeText, h.asText?]
  split
  · exact .ok rfl
  · exact .error (h.mismatch _ _)

variable (h : (Tree.map entries).Alike exact (.map others))
include h

theorem typeAgrees_alike (key : TypeKey) :
    TypeAgrees (ConfigError.Alike exact) (.map entries) (.map others) key :=
  optionRel_imp (h.lookup key.text) fun _ _ _ ht => typeText_alike ht key

/-- The order of entries shows in nothing but the unknown field that is named. -/
theorem checkKeys_alike (c : Component) (strictness : Strictness) :
    Agree (ConfigError.Alike exact) (fun _ _ => True) (c.checkKeys strictness entries).result
      (c.checkKeys strictness others).result := by
  cases strictness with
  | lenient => exact .ok trivial
  | strict =>
    have hkeys := (Tree.keys_perm_of_same (Tree.distinct_map.mp h.left).1 h.same).filter
      fun key => !c.knows key
    have hunknown : ∀ key ∈ (entries.map Prod.fst).filter fun key => !c.knows key,
        c.knows key = false := by simp
    unfold Component.checkKeys
    generalize (entries.map Prod.fst).filter (fun key => !c.knows key) = keys,
      (others.map Prod.fst).filter (fun key => !c.knows key) = keys' at hkeys hunknown
    cases keys with
    | nil =>
      obtain rfl := hkeys.symm.eq_nil
      exact .ok trivial
    | cons key rest =>
      cases keys' with
      | nil => cases hkeys.eq_nil
      | cons key' rest' =>
        exact .error (.unknownField (hunknown key List.mem_cons_self)
          (hunknown key' (hkeys.mem_iff.mpr List.mem_cons_self)))

theorem checkShapes_alike (c : Component) (fields : List Field) :
    Agree (ConfigError.Alike exact) (fun _ _ => True) (c.checkShapes entries fields)
      (c.checkShapes others fields) := by
  refine checkShapes_agree (congruence_alike exact) fun f _ => ?_
  have hentry := h.lookup f.name
  generalize entries.lookup f.name = entry, others.lookup f.name = other at hentry ⊢
  cases hentry with
  | none => exact .none
  | some ht => exact .some ⟨accepts_alike ht f.shape, fun _ => ht.mismatch _ _⟩

end

-- ---------------------------------------------------------------------------
-- Trees
-- ---------------------------------------------------------------------------

/-- The custom builders make equal builders of equal nodes or fail with the same error. -/
def Context.RespectsEquality {β : Type} (ctx : Context β) : Prop :=
  ∀ b node other types, node.same other = true → node.Distinct → other.Distinct →
    (∃ d d', (ctx.custom b ctx.registry node types).result = .ok d ∧
      (ctx.custom b ctx.registry other types).result = .ok d' ∧ d.same d' = true) ∨
    ∃ e, (ctx.custom b ctx.registry node types).result = .error e ∧
      (ctx.custom b ctx.registry other types).result = .error e

section
variable {β : Type} {ctx : Context β} {exact : Prop} {entries others : Tree.Entries}

def Context.ReadsAlike (ctx : Context β) (exact : Prop) (t : Tree) : Prop :=
  ∀ u, t.Alike exact u → ∀ f types,
    Agree (ConfigError.Alike exact) Deferred.Alike ((ctx.part t).object f types).result
        ((ctx.part u).object f types).result ∧
      Agree (ConfigError.Alike exact) (List.Forall₂ Deferred.Alike)
        ((ctx.part t).objects f types).result ((ctx.part u).objects f types).result

theorem fieldAgrees_alike {c : Component} {types : Instantiation}
    (h : (Tree.map entries).Alike exact (.map others))
    (hparts : ∀ entry ∈ entries, ctx.ReadsAlike exact entry.2) (name : String) :
    FieldAgrees ctx ctx (ConfigError.Alike exact) (fun p p' => p.same p' = true) c types
      (ctx.parts entries) (ctx.parts others) name := by
  refine fieldAgrees_of_lookup (optionRel_imp (h.lookup name) fun t u ht htu parameter _ => ?_)
  have hread := hparts _ (mem_of_lookup ht)
  refine readField_agree (congruence_alike exact) rfl (fun q _ => ?_)
    (fun g _ => (hread u htu g types).1) (fun g _ => (hread u htu g types).2) fun _ => ?_
  · rw [ctx.tree_part, ctx.tree_part]
    refine (Target.convert_alike htu (q.target types)).imp fun v w hvw => ?_
    rw [Param.same, Target.sameAcross_self]
    exact hvw
  · rw [ctx.tree_part, ctx.tree_part]
    exact ⟨htu.asText?, htu.mismatch _ _⟩

variable (hrespects : ctx.RespectsEquality)
include hrespects

theorem custom_alike (h : (Tree.map entries).Alike exact (.map others)) (b : β)
    (types : Instantiation) :
    Agree (ConfigError.Alike exact) Deferred.Alike
      (ctx.custom b ctx.registry (.map entries) types).result
      (ctx.custom b ctx.registry (.map others) types).result := by
  rcases hrespects b _ _ types h.same h.left h.right with
    ⟨d, d', hd, hd', hsame⟩ | ⟨e, he, he'⟩
  · rw [hd, hd']
    exact .ok hsame
  · rw [he, he']
    exact .error (.refl e)

theorem dispatch_alike (h : (Tree.map entries).Alike exact (.map others))
    (hparts : ∀ entry ∈ entries, ctx.ReadsAlike exact entry.2) (kind : Kind)
    (inherited : Instantiation) :
    Agree (ConfigError.Alike exact) Deferred.Alike
      (ctx.dispatch kind entries (ctx.parts entries) inherited).result
      (ctx.dispatch kind others (ctx.parts others) inherited).result := by
  have hc := congruence_alike exact
  have htypes := typeAgrees_alike h
  refine dispatch_agree hc (fun _ _ => congrArg _) (resolve_agree .refl htypes inherited)
    (typeName_agree .refl (htypes .type) kind) (fun types name name' hname _ _ => ?_)
    fun types name c _ _ => ?_
  · subst hname
    unfold Context.readCustom
    split
    · exact .error (.refl _)
    · exact .error (.refl _)
    · exact custom_alike hrespects h _ types
  · exact readComponent_agree hc (checkKeys_alike h c _) (checkShapes_alike h c _)
      fun f _ => fieldAgrees_alike h hparts f.name

omit hrespects in
theorem readsAlike_of_not_array {t : Tree} (ha : t.isArray = false)
    (hobject : ∀ u, t.Alike exact u → ∀ f types,
      Agree (ConfigError.Alike exact) Deferred.Alike ((ctx.part t).object f types).result
        ((ctx.part u).object f types).result) : ctx.ReadsAlike exact t := by
  intro u h f types
  have hu : u.isArray = false := by
    rw [← ha]
    cases h.parts <;> rfl
  exact ⟨hobject u h f types, objects_agree_of_not_array ha hu (hobject u h f types)⟩

omit hrespects in
theorem readsAlike_leaf {t : Tree} (ha : t.isArray = false) (hm : t.isMap = false) :
    ctx.ReadsAlike exact t := by
  refine readsAlike_of_not_array ha fun u h f types => ?_
  cases h.parts with
  | leaf _ _ _ =>
    refine .refl .refl fun d hd => ?_
    cases object_ok.mp hd with
    | node _ _ => cases hm
    | name _ _ => exact Deferred.same_bound
  | zeros _ _ _ => exact .error (h.mismatch _ _)
  | array _ => cases ha
  | map _ => cases hm

omit hrespects in
theorem readsAlike_array {items : List Tree} (hitems : ∀ item ∈ items, ctx.ReadsAlike exact item) :
    ctx.ReadsAlike exact (.array items) := by
  intro u h f types
  cases h.parts with
  | leaf ha _ _ => cases ha
  | @array _ others each =>
    refine ⟨.error (h.mismatch _ _), objects_agree_of_array ?_⟩
    exact ((List.forall₂_and_left _ _).mpr ⟨hitems, each⟩).imp
      fun item other h => (h.1 other h.2 f types).1

theorem readsAlike (t : Tree) : ctx.ReadsAlike exact t := by
  induction t using Tree.induction with
  | leaf t ha hm => exact readsAlike_leaf ha hm
  | array items ih => exact readsAlike_array ih
  | map entries ih =>
    refine readsAlike_of_not_array rfl fun u h f types => ?_
    cases h.parts with
    | leaf _ hm _ => cases hm
    | map _ =>
      exact (dispatch_alike hrespects h ih (.family f) types).bind
        fun d d' _ hd => intoFamily_alike hd f

theorem parse_alike {a b : Tree} (h : a.Alike exact b) (kind : Kind) (inherited : Instantiation) :
    Agree (ConfigError.Alike exact) Deferred.Alike (ctx.parse kind a inherited).result
      (ctx.parse kind b inherited).result := by
  cases h.parts with
  | leaf _ hm _ =>
    refine .refl .refl fun d hd => ?_
    obtain ⟨entries, rfl⟩ := isMap_of_parse_ok hd
    cases hm
  | zeros _ _ _ | array _ => exact .error (h.mismatch _ _)
  | map _ => exact dispatch_alike hrespects h (fun entry _ => readsAlike hrespects entry.2) _ _

end

/-- Equal trees are parsed to equal builders, or both are refused with an error of one variant. If
they differ only in the order of map entries, the error is the same, save that it may name another
unknown field. -/
theorem parse_same {β : Type} (ctx : Context β) (hrespects : ctx.RespectsEquality) {a b : Tree}
    (hsame : a.same b = true) (ha : a.Distinct) (hb : b.Distinct) (kind : Kind)
    (inherited : Instantiation) :
    (∃ d d', (ctx.parse kind a inherited).result = .ok d ∧
      (ctx.parse kind b inherited).result = .ok d' ∧ d.same d' = true) ∨
    ∃ e e', (ctx.parse kind a inherited).result = .error e ∧
      (ctx.parse kind b inherited).result = .error e' ∧ e.ctorIdx = e'.ctorIdx ∧
      (a.Reordered b → e = e' ∨ ∃ (c : Component) (key key' : String),
        e = .unknownField c key ∧ e' = .unknownField c key' ∧
          c.knows key = false ∧ c.knows key' = false) := by
  have h : a.Alike (a.Reordered b) b := ⟨hsame, id, ha, hb⟩
  have hparse := parse_alike hrespects h kind inherited
  generalize (ctx.parse kind a inherited).result = x,
    (ctx.parse kind b inherited).result = y at hparse ⊢
  cases hparse with
  | @ok d d' hd => exact .inl ⟨d, d', rfl, rfl, hd⟩
  | @error e e' he =>
    refine .inr ⟨e, e', rfl, rfl, ?_⟩
    cases he with
    | refl e => exact ⟨rfl, fun _ => .inl rfl⟩
    | mismatch text => exact ⟨rfl, fun hr => .inl (by rw [text hr])⟩
    | unknownField hk hk' => exact ⟨rfl, fun _ => .inr ⟨_, _, _, rfl, rfl, hk, hk'⟩⟩

theorem parse_same_preconditioned_cg :
    let direct : Deferred := .bound (.mk 0 (.reference 0) ⟨.ilu, some .float64, some .int32⟩ [])
    let ctx : Context Unit :=
      ⟨⟨[], [("custom::Direct", ())]⟩, fun _ _ _ _ => .ofExcept (.ok direct), .strict⟩
    let criterion (x : Double) : Tree :=
      .map [("Type", .text "ResidualNorm"), ("reduction_factor", .real x)]
    let preconditioner : Tree := .map [("Type", .text "custom::Direct")]
    let a : Tree := .map [("Type", .text "solver::Cg"), ("criteria", criterion (.zero false)),
      ("preconditioner", preconditioner)]
    let b : Tree := .map [("preconditioner", preconditioner), ("criteria", criterion (.zero true)),
      ("Type", .text "solver::Cg")]
    ctx.RespectsEquality ∧ a.same b = true ∧ a.Distinct ∧ b.Distinct ∧
      ∃ d d', (ctx.parse (.family .linOp) a ⟨.float64, .int32⟩).result = .ok d ∧
        (ctx.parse (.family .linOp) b ⟨.float64, .int32⟩).result = .ok d' ∧ d.same d' = true := by
  intro direct ctx criterion preconditioner a b
  have hrespects : ctx.RespectsEquality :=
    fun _ _ _ _ _ _ _ => .inl ⟨direct, direct, rfl, rfl, rfl⟩
  have htext : ∀ s, (Tree.text s).Distinct := fun _ => .leaf rfl rfl
  have hreal : ∀ x, (Tree.real x).Distinct := fun _ => .leaf rfl rfl
  have ha : a.Distinct := by
    simp [a, criterion, preconditioner, Tree.distinct_map, htext, hreal]
  have hb : b.Distinct := by
    simp [b, criterion, preconditioner, Tree.distinct_map, htext, hreal]
  have hsame : a.same b = true := by decide
  rcases parse_same ctx hrespects hsame ha hb (.family .linOp) ⟨.float64, .int32⟩ with
    h | ⟨e, e', he, -⟩
  · exact ⟨hrespects, hsame, ha, hb, h⟩
  · cases he

end SolverConfig
