import SolverConfig.Proofs.Places
import SolverConfig.Proofs.Reading

/-!
# Descent into a configuration

Nodes of components are nested in the object fields of other nodes, and the builders made of them
in the parameters of the same names. Every node that is reached in a tree that is parsed has been
parsed itself, under the types that the nodes above it leave in effect, and its builder is found at
the same place below the builder of the root.
-/

namespace SolverConfig

-- ---------------------------------------------------------------------------
-- Places
-- ---------------------------------------------------------------------------

/-- The object at a position under a field: an element of an array, or at the first position the
tree itself. -/
def Tree.objectAt? : Tree → Nat → Option Tree
  | .array items, position => items[position]?
  | t, 0 => some t
  | _, _ + 1 => none

theorem objectAt?_of_not_array {t child : Tree} {i : Nat} (h : t.isArray = false) :
    t.objectAt? i = some child ↔ i = 0 ∧ child = t := by
  cases t with
  | array items => cases h
  | _ => cases i <;> simp [Tree.objectAt?, eq_comm]

/-- The nodes of components below a root of a kind: the path to each, the kind that is asked for
there, and the nodes above it, the nearest first. -/
inductive Descends (kind : Kind) (root : Tree) :
    List (String × Nat) → Kind → Tree → List Tree → Prop
  | root : Descends kind root [] kind root []
  | field {path : List (String × Nat)} {here : Kind} {node t child : Tree} {above : List Tree}
      {c : Component} {f : Field} {g : Family} {position : Nat}
      (reached : Descends kind root path here node above) (names : NamesComponent here node c)
      (field : f ∈ c.fields) (shape : f.shape = .object g ∨ f.shape = .objects g)
      (entry : node.find? f.name = some t) (object : t.objectAt? position = some child)
      (isMap : child.isMap = true) :
      Descends kind root (path ++ [(f.name, position)]) (.family g) child (node :: above)

inductive Shape.Names : Shape → Tree → Nat → String → Prop
  | object {g : Family} {s : String} : Names (.object g) (.text s) 0 s
  | objects {g : Family} {t : Tree} {position : Nat} {s : String}
      (object : t.objectAt? position = some (.text s)) : Names (.objects g) t position s
  | reference {s : String} : Names .reference (.text s) 0 s

/-- The texts below a root that stand for registered objects: the path to the node of a component,
the field of that component and the position under it. -/
inductive Mentions (kind : Kind) (root : Tree) :
    List (String × Nat) → Field → Nat → String → Prop
  | intro {path : List (String × Nat)} {here : Kind} {node t : Tree} {above : List Tree}
      {c : Component} {f : Field} {position : Nat} {s : String}
      (reached : Descends kind root path here node above) (names : NamesComponent here node c)
      (field : f ∈ c.fields) (entry : node.find? f.name = some t)
      (text : f.shape.Names t position s) : Mentions kind root path f position s

def nearest? (key : TypeKey) (nodes : List Tree) : Option Tree :=
  nodes.findSome? fun node => node.find? key.text

/-- What the nearest of some nodes names under a key, or what is inherited if none has the key. -/
def Nearest {α : Type} [Vocabulary α] (key : TypeKey) (nodes : List Tree) (inherited a : α) :
    Prop :=
  match nearest? key nodes with
  | some t => ∃ s, t = .text s ∧ Vocabulary.names s a = true
  | none => a = inherited

def NearestTypes (nodes : List Tree) (inherited types : Instantiation) : Prop :=
  Nearest .valueType nodes inherited.value types.value ∧
    Nearest .indexType nodes inherited.index types.index

theorem Nearest.cons {α : Type} [Vocabulary α] {key : TypeKey} {node : Tree} {above : List Tree}
    {inherited around a : α} (h : Nearest key above inherited around)
    (ha : InEffect key node around a) : Nearest key (node :: above) inherited a := by
  unfold Nearest nearest? InEffect at *
  rw [List.findSome?_cons]
  cases hn : node.find? key.text with
  | some t =>
    rw [hn] at ha
    exact ha
  | none =>
    rw [hn] at ha
    subst ha
    exact h

theorem NearestTypes.cons {node : Tree} {above : List Tree} {inherited around types : Instantiation}
    (h : NearestTypes above inherited around) (ht : TypesInEffect node around types) :
    NearestTypes (node :: above) inherited types :=
  ⟨h.1.cons ht.1, h.2.cons ht.2⟩

-- ---------------------------------------------------------------------------
-- One step down
-- ---------------------------------------------------------------------------

section
variable {β : Type} {ctx : Context β} {f : Family} {types : Instantiation} {t child : Tree}
  {d : Deferred} {position : Nat}

theorem Context.SaysObject.parsed (h : ctx.SaysObject f types t d) (hm : t.isMap = true) :
    (ctx.parse (.family f) t types).result = .ok d := by
  cases h with
  | node hd _ => exact hd
  | name _ _ => cases hm

theorem Context.SaysObject.objectAt (h : ctx.SaysObject f types t d)
    (ho : t.objectAt? position = some child) : position = 0 ∧ child = t := by
  cases h with
  | node _ _ => exact (objectAt?_of_not_array rfl).mp ho
  | name _ _ => exact (objectAt?_of_not_array rfl).mp ho

theorem Context.SaysObjects.objectAt {ds : List Deferred} (h : ctx.SaysObjects f types t ds)
    (ho : t.objectAt? position = some child) :
    ∃ d, ds[position]? = some d ∧ ctx.SaysObject f types child d := by
  cases h with
  | one h =>
    obtain ⟨rfl, rfl⟩ := h.objectAt ho
    exact ⟨_, rfl, h⟩
  | array h =>
    obtain ⟨hlength, hall⟩ := List.forall₂_iff_get.mp h
    obtain ⟨hi, rfl⟩ := List.getElem?_eq_some_iff.mp ho
    exact ⟨ds[position], List.getElem?_eq_getElem (hlength ▸ hi), hall position hi (hlength ▸ hi)⟩

end

section
variable {β : Type} {ctx : Context β} {kind : Kind} {inherited : Instantiation} {node : Tree}
  {c : Component} {d : Deferred}

theorem parse_ok_unbound (h : (ctx.parse kind node inherited).result = .ok d)
    (hc : NamesComponent kind node c) :
    ∃ types params, TypesInEffect node inherited types ∧ kind.admits c = true ∧
      d = .unbound (c.signature types) params ∧
      (∀ f ∈ c.fields, ∀ t, node.find? f.name = some t → f.shape.accepts t = true) ∧
      ∃ entries, node = .map entries ∧ (ctx.readFields c types (ctx.parts entries) c.reads
        (c.initialParams types)).result = .ok params := by
  obtain ⟨entries, rfl⟩ := isMap_of_parse_ok h
  obtain ⟨types, params, htypes, hkind, -, -, hshapes, hread, rfl⟩ := (parse_component_ok hc).mp h
  exact ⟨types, params, htypes, hkind, rfl, fun f hf => (hshapes f hf).2, entries, rfl, hread⟩

theorem parse_nested_ok {f : Field} {g : Family} {t child : Tree} {position : Nat}
    (h : (ctx.parse kind node inherited).result = .ok d) (hc : NamesComponent kind node c)
    (hf : f ∈ c.fields) (hs : f.shape = .object g ∨ f.shape = .objects g)
    (ht : node.find? f.name = some t) (ho : t.objectAt? position = some child)
    (hm : child.isMap = true) :
    ∃ types nested, TypesInEffect node inherited types ∧
      (ctx.parse (.family g) child types).result = .ok nested ∧
      d.nested? f.name position = some nested := by
  obtain ⟨types, params, htypes, -, rfl, hshapes, entries, rfl, hread⟩ := parse_ok_unbound h hc
  obtain ⟨p, hp, hl⟩ := says_of_readFields hread hf ht (hshapes f hf t ht)
  rcases hs with hs | hs
  · obtain ⟨nested, hd, rfl⟩ := (says_object hs).mp hp
    obtain ⟨rfl, rfl⟩ := hd.objectAt ho
    exact ⟨types, nested, htypes, hd.parsed hm, Params.component?_of_lookup hl 0⟩
  · obtain ⟨ds, hds, rfl⟩ := (says_objects hs).mp hp
    obtain ⟨nested, hi, hd⟩ := hds.objectAt ho
    exact ⟨types, nested, htypes, hd.parsed hm, (Params.component?_of_lookup hl position).trans hi⟩

-- ---------------------------------------------------------------------------
-- All steps down
-- ---------------------------------------------------------------------------

theorem parse_reached_ok {root : Tree} {path : List (String × Nat)} {here : Kind}
    {above : List Tree} (h : (ctx.parse kind root inherited).result = .ok d)
    (hr : Descends kind root path here node above) :
    ∃ around nested, NearestTypes above inherited around ∧
      (ctx.parse here node around).result = .ok nested ∧ d.at? path = some nested := by
  -- From the root down: what holds of a node carries over to each object nested in it.
  induction hr with
  | root => exact ⟨inherited, d, ⟨rfl, rfl⟩, h, rfl⟩
  | field _ hc hf hs ht ho hm ih =>
    obtain ⟨around, outer, haround, houter, hat⟩ := ih
    obtain ⟨types, nested, htypes, hnested, hstep⟩ := parse_nested_ok houter hc hf hs ht ho hm
    refine ⟨types, nested, haround.cons htypes, hnested, ?_⟩
    rw [Deferred.at?_concat, hat]
    exact hstep

end

end SolverConfig
