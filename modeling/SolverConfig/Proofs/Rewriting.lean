import SolverConfig.Proofs.Agreement

/-!
# Rewriting nodes

A rewriting changes the nodes of a tree: its root, and below a node of a component the objects that
the fields hold. It keeps what is no node. If two parses read a node and its rewriting alike
whenever they do so with the nodes in it, they read all trees alike.
-/

namespace SolverConfig

-- ---------------------------------------------------------------------------
-- Where nodes are
-- ---------------------------------------------------------------------------

/-- The family of the objects that a field holds, and whether an array of them may stand there. -/
def Shape.nesting? : Shape → Option (Family × Bool)
  | .object f => some (f, false)
  | .objects f => some (f, true)
  | .scalar | .value | .array | .reference => none

def Component.nesting? (c : Component) (key : String) : Option (Family × Bool) :=
  (c.field? key).bind fun f => f.shape.nesting?

/-- The component that a node names, where its `Type` names one or, without `Type`, the kind is one.
-/
def Kind.component? (kind : Kind) (node : Tree) : Option Component :=
  match node.find? TypeKey.type.text with
  | some t => t.asText?.bind (Vocabulary.find? Component)
  | none =>
    match kind with
    | .component c => some c
    | .family _ => none

theorem nesting?_of_mem {c : Component} {f : Field} (hf : f ∈ c.fields) :
    c.nesting? f.name = f.shape.nesting? := by
  have h : ∀ f ∈ c.fields, c.nesting? f.name = f.shape.nesting? := by cases c <;> decide
  exact h f hf

theorem nesting?_typeKey (c : Component) (key : TypeKey) : c.nesting? key.text = none := by
  cases c <;> cases key <;> decide

theorem component?_of_typeName {kind : Kind} {node : Tree} {name : String}
    (h : typeName kind node = .ok name) :
    kind.component? node = Vocabulary.find? Component name := by
  unfold typeName at h
  unfold Kind.component?
  cases hn : node.find? TypeKey.type.text with
  | some t =>
    rw [hn] at h
    obtain rfl := typeText_ok.mp h
    rfl
  | none =>
    rw [hn] at h
    cases kind with
    | family f => cases h
    | component c =>
      cases h
      exact (LawfulVocabulary.find?_eq_some_iff.mpr (Vocabulary.names_name c)).symm

-- ---------------------------------------------------------------------------
-- Rewritings
-- ---------------------------------------------------------------------------

/-- What becomes of a node of a kind, and of a tree where nodes of a kind are. Where there may be
many, an array stands for those in it. -/
structure Rewriting where
  node : Kind → Tree.Entries → Tree.Entries
  tree : Kind → Bool → Tree → Tree
  map (kind : Kind) (many : Bool) (entries : Tree.Entries) :
    tree kind many (.map entries) = .map (node kind entries)
  items (kind : Kind) (items : List Tree) :
    tree kind true (.array items) = .array (items.map (tree kind false))
  array (kind : Kind) (items : List Tree) : tree kind false (.array items) = .array items
  leaf (kind : Kind) (many : Bool) {t : Tree} (notArray : t.isArray = false)
    (notMap : t.isMap = false) : tree kind many t = t

namespace Rewriting

def under (r : Rewriting) (s : Shape) (t : Tree) : Tree :=
  match s.nesting? with
  | some (f, many) => r.tree (.family f) many t
  | none => t

section
variable (r : Rewriting) {t : Tree} {kind : Kind} {many : Bool}

theorem tree_cases (kind : Kind) (many : Bool) (t : Tree) :
    (∃ entries entries', t = .map entries ∧ r.tree kind many t = .map entries') ∨
      (∃ items, t = .array items ∧ many = true ∧
        r.tree kind many t = .array (items.map (r.tree kind false))) ∨
      r.tree kind many t = t := by
  cases hm : t.isMap with
  | true =>
    obtain ⟨entries, rfl⟩ := Tree.exists_of_isMap hm
    exact .inl ⟨entries, _, rfl, r.map kind many entries⟩
  | false =>
    cases ha : t.isArray with
    | false => exact .inr (.inr (r.leaf kind many ha hm))
    | true =>
      obtain ⟨items, rfl⟩ := Tree.exists_of_isArray ha
      cases many with
      | false => exact .inr (.inr (r.array kind items))
      | true => exact .inr (.inl ⟨items, rfl, rfl, r.items kind items⟩)

theorem isMap_tree : (r.tree kind many t).isMap = t.isMap := by
  rcases r.tree_cases kind many t with ⟨_, _, rfl, h⟩ | ⟨_, rfl, -, h⟩ | h <;> rw [h] <;> rfl

theorem asText?_tree : (r.tree kind many t).asText? = t.asText? := by
  rcases r.tree_cases kind many t with ⟨_, _, rfl, h⟩ | ⟨_, rfl, -, h⟩ | h <;> rw [h] <;> rfl

theorem describe_tree : (r.tree kind many t).describe = t.describe := by
  rcases r.tree_cases kind many t with ⟨_, _, rfl, h⟩ | ⟨_, rfl, -, h⟩ | h <;> rw [h]
  · rfl
  · simp [Tree.describe]

theorem isObject_tree : Shape.isObject (r.tree kind many t) = Shape.isObject t := by
  rw [Shape.isObject, isMap_tree, asText?_tree, Shape.isObject]

theorem isArrayOf_isObject_tree :
    Shape.isArrayOf Shape.isObject (r.tree kind many t) = Shape.isArrayOf Shape.isObject t := by
  rcases r.tree_cases kind many t with ⟨_, _, rfl, h⟩ | ⟨items, rfl, -, h⟩ | h <;> rw [h]
  · rfl
  · have hp : Shape.isObject ∘ r.tree kind false = Shape.isObject :=
      funext fun _ => r.isObject_tree
    simp only [Shape.isArrayOf, Tree.asArray?, List.all_map, hp]

theorem accepts_under (s : Shape) : s.accepts (r.under s t) = s.accepts t := by
  cases s with
  | object g => exact r.isObject_tree
  | objects g =>
    simp only [under, Shape.nesting?, Shape.accepts, isObject_tree, isArrayOf_isObject_tree]
  | _ => rfl

theorem describe_under (s : Shape) : (r.under s t).describe = t.describe := by
  unfold under
  split
  · exact r.describe_tree
  · rfl

end

-- ---------------------------------------------------------------------------
-- Reading a rewritten tree
-- ---------------------------------------------------------------------------

section
variable {β : Type} (r : Rewriting) {ctx ctx' : Context β} {c : Component}
  {entries others : Tree.Entries} {t : Tree}

/-- It makes no difference whether the tree is rewritten where it is read as one object or as
several. -/
def Unseen (ctx ctx' : Context β) (t : Tree) : Prop :=
  ∀ f types,
    ((ctx.part t).object f types).result =
        ((ctx'.part (r.tree (.family f) false t)).object f types).result ∧
      ((ctx.part t).objects f types).result =
        ((ctx'.part (r.tree (.family f) true t)).objects f types).result

/-- A node and its rewriting are parsed alike if the nodes in it are read alike. -/
def Faithful (ctx ctx' : Context β) : Prop :=
  ∀ kind entries inherited, (∀ entry ∈ entries, r.Unseen ctx ctx' entry.2) →
    (ctx.parse kind (.map entries) inherited).result =
      (ctx'.parse kind (.map (r.node kind entries)) inherited).result

variable {r}

theorem checkShapes_agree {fields : List Field}
    (hothers : ∀ f ∈ fields, others.lookup f.name = (entries.lookup f.name).map (r.under f.shape)) :
    Agree (· = ·) (fun _ _ => True) (c.checkShapes entries fields)
      (c.checkShapes others fields) := by
  refine SolverConfig.checkShapes_agree congruence_eq fun f hf => ?_
  rw [hothers f hf]
  cases entries.lookup f.name with
  | none => exact .none
  | some t =>
    refine .some ⟨(r.accepts_under f.shape).symm, fun _ => ?_⟩
    rw [Tree.mismatch, Tree.mismatch, r.describe_under]

variable (hregistry : ctx.registry = ctx'.registry)
include hregistry

theorem fieldAgrees {types : Instantiation} {f : Field} (hf : f ∈ c.fields)
    (hothers : others.lookup f.name = (entries.lookup f.name).map (r.under f.shape))
    (h : ∀ entry ∈ entries, r.Unseen ctx ctx' entry.2) :
    FieldAgrees ctx ctx' (· = ·) (· = ·) c types (ctx.parts entries) (ctx'.parts others)
      f.name := by
  refine fieldAgrees_of_lookup ?_
  rw [hothers]
  cases ht : entries.lookup f.name with
  | none => exact .none
  | some t =>
    refine .some fun parameter hp => ?_
    have hu : r.Unseen ctx ctx' t := h _ (mem_of_lookup ht)
    rw [← Component.shape_of_parameter? hf hp]
    refine readField_agree congruence_eq hregistry (fun q hq => ?_) (fun g hs => ?_)
      (fun g hs => ?_) fun hs => ?_
    · -- A tree whose value is converted is no node, and left as it is.
      have hleft : parameter.type.shape.nesting? = none := by
        obtain ⟨name, type⟩ := parameter
        cases type with
        | leaf q _ | optionalLeaf q => cases q <;> rfl
        | _ => cases hq
      rw [Context.tree_part, Context.tree_part, under, hleft]
      refine .refl (fun _ => rfl) fun _ _ => ?_
      rfl
    · rw [hs]
      exact agree_eq.mpr (hu g types).1
    · rw [hs, List.forall₂_eq_eq_eq]
      exact agree_eq.mpr (hu g types).2
    · rw [hs, Context.tree_part, Context.tree_part]
      exact ⟨rfl, rfl⟩

theorem readComponent_agree {types : Instantiation}
    (hkeys : Agree (· = ·) (fun _ _ => True) (c.checkKeys ctx.strictness entries).result
      (c.checkKeys ctx'.strictness others).result)
    (hothers : ∀ f ∈ c.fields,
      others.lookup f.name = (entries.lookup f.name).map (r.under f.shape))
    (h : ∀ entry ∈ entries, r.Unseen ctx ctx' entry.2) :
    Agree (· = ·) (· = ·)
      (ctx.readComponent c (c.signature types) types entries (ctx.parts entries)).result
      (ctx'.readComponent c (c.signature types) types others (ctx'.parts others)).result :=
  SolverConfig.readComponent_agree congruence_eq hkeys (checkShapes_agree hothers)
    fun f hf => fieldAgrees hregistry hf (hothers f hf) h

theorem unseen_leaf (ha : t.isArray = false) (hm : t.isMap = false) : r.Unseen ctx ctx' t := by
  intro f types
  rw [r.leaf _ _ ha hm, r.leaf _ _ ha hm]
  cases t with
  | array items => cases ha
  | map entries => cases hm
  | text s =>
    simp only [Context.part, Part.objects, hregistry, and_self]
  | _ => exact ⟨rfl, rfl⟩

omit hregistry in
theorem unseen_array {items : List Tree} (h : ∀ item ∈ items, r.Unseen ctx ctx' item) :
    r.Unseen ctx ctx' (.array items) := by
  intro f types
  rw [r.array, r.items]
  refine ⟨rfl, objects_eq_of_array (List.forall₂_map_right_iff.mpr ?_)⟩
  exact List.forall₂_same.mpr fun item hi => (h item hi f types).1

omit hregistry in
theorem unseen_map (hr : r.Faithful ctx ctx') (h : ∀ entry ∈ entries, r.Unseen ctx ctx' entry.2) :
    r.Unseen ctx ctx' (.map entries) := by
  intro f types
  have hobject : ((ctx.part (.map entries)).object f types).result =
      ((ctx'.part (.map (r.node (.family f) entries))).object f types).result := by
    rw [← agree_eq]
    refine (agree_eq.mpr (hr (.family f) entries types h)).bind ?_
    rintro d _ - rfl
    exact .refl (fun _ => rfl) fun _ _ => rfl
  rw [r.map, r.map]
  exact ⟨hobject, objects_eq_of_not_array rfl rfl hobject⟩

theorem unseen (hr : r.Faithful ctx ctx') (t : Tree) : r.Unseen ctx ctx' t := by
  induction t using Tree.induction with
  | leaf t ha hm => exact unseen_leaf hregistry ha hm
  | array items ih => exact unseen_array ih
  | map entries ih => exact unseen_map hr ih

/-- What is so of a node if it is of the nodes in it is so of every tree. -/
theorem parse_eq (hr : r.Faithful ctx ctx') (kind : Kind) (tree : Tree)
    (inherited : Instantiation) :
    (ctx.parse kind tree inherited).result =
      (ctx'.parse kind (r.tree kind false tree) inherited).result := by
  cases tree with
  | map entries =>
    rw [r.map]
    exact hr kind entries inherited fun entry _ => unseen hregistry hr entry.2
  | array items =>
    rw [r.array]
    rfl
  | _ =>
    rw [r.leaf kind false rfl rfl]
    rfl

end

end Rewriting

end SolverConfig
