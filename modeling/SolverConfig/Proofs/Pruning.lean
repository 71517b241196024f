import SolverConfig.Proofs.Rewriting

/-!
# Pruning

The unknown keys of a tree are those that a node of a component has besides its types and fields.
Without them a strict parse gives what a lenient parse gives with them, the same builder or the same
error.
-/

namespace SolverConfig

-- ---------------------------------------------------------------------------
-- Pruned trees
-- ---------------------------------------------------------------------------

namespace Tree

mutual

/-- The node without the keys that its component does not know, and so are the nodes below it. Where
there may be many objects, an array stands for those in it. -/
def pruneAs (kind : Kind) (many : Bool) : Tree → Tree
  | .map entries =>
    .map (match kind.component? (.map entries) with
      | some c => pruneEntries c entries
      | none => entries)
  | .array items => if many then .array (pruneItems kind items) else .array items
  | .empty => .empty
  | .boolean b => .boolean b
  | .integer n => .integer n
  | .real x => .real x
  | .text s => .text s
termination_by structural t => t

def pruneEntries (c : Component) : List (String × Tree) → Entries
  | [] => []
  | (key, t) :: rest =>
    if c.knows key then
      (key, match c.nesting? key with
        | some (f, many) => t.pruneAs (.family f) many
        | none => t) :: pruneEntries c rest
    else pruneEntries c rest
termination_by structural entries => entries

def pruneItems (kind : Kind) : List Tree → List Tree
  | [] => []
  | t :: rest => t.pruneAs kind false :: pruneItems kind rest
termination_by structural items => items

end

def prune (kind : Kind) (t : Tree) : Tree := t.pruneAs kind false

end Tree

def Component.pruneUnder (c : Component) (key : String) (t : Tree) : Tree :=
  match c.nesting? key with
  | some (f, many) => t.pruneAs (.family f) many
  | none => t

def Context.under {β : Type} (ctx : Context β) (strictness : Strictness) : Context β :=
  { ctx with strictness }

theorem Context.registry_under {β : Type} (ctx : Context β) (s s' : Strictness) :
    (ctx.under s).registry = (ctx.under s').registry := rfl

section
variable {c : Component} {entries : Tree.Entries} {key : String}

theorem lookup_pruneEntries (h : c.knows key = true) :
    (Tree.pruneEntries c entries).lookup key = (entries.lookup key).map (c.pruneUnder key) := by
  induction entries with
  | nil => rfl
  | cons entry rest ih =>
    obtain ⟨k, t⟩ := entry
    rw [Tree.pruneEntries, List.lookup_cons]
    by_cases hk : key = k
    · subst hk
      simp [h, Component.pruneUnder]
    · rw [beq_false_of_ne hk, ← ih]
      split
      · rw [List.lookup_cons, beq_false_of_ne hk]
      · rfl

theorem keys_pruneEntries :
    (Tree.pruneEntries c entries).map Prod.fst =
      (entries.map Prod.fst).filter fun key => c.knows key := by
  induction entries with
  | nil => rfl
  | cons entry rest ih =>
    obtain ⟨k, t⟩ := entry
    rw [Tree.pruneEntries, List.map_cons, List.filter_cons, ← ih]
    split <;> rfl

theorem knows_pruneEntries : ∀ entry ∈ Tree.pruneEntries c entries, c.knows entry.1 = true := by
  intro entry h
  have hk : entry.1 ∈ (Tree.pruneEntries c entries).map Prod.fst := List.mem_map_of_mem h
  rw [keys_pruneEntries, List.mem_filter] at hk
  exact hk.2

theorem find?_pruneEntries (key : TypeKey) :
    (Tree.map (Tree.pruneEntries c entries)).find? key.text =
      (Tree.map entries).find? key.text := by
  have hid : c.pruneUnder key.text = id := by
    funext t
    rw [Component.pruneUnder, nesting?_typeKey]
    rfl
  have h : (Tree.pruneEntries c entries).lookup key.text = entries.lookup key.text := by
    rw [lookup_pruneEntries (knows_ok.mpr (.inl ⟨key, rfl⟩)), hid, Option.map_id]
    rfl
  exact h

end

theorem pruneItems_eq_map (kind : Kind) (items : List Tree) :
    Tree.pruneItems kind items = items.map (Tree.pruneAs kind false) := by
  induction items with
  | nil => rfl
  | cons t rest ih => rw [Tree.pruneItems, ih, List.map_cons]

def pruning : Rewriting where
  node kind entries :=
    match kind.component? (.map entries) with
    | some c => Tree.pruneEntries c entries
    | none => entries
  tree := Tree.pruneAs
  map _ _ _ := rfl
  items kind items := congrArg Tree.array (pruneItems_eq_map kind items)
  array _ _ := rfl
  leaf kind many t notArray notMap := by
    cases t with
    | array items => cases notArray
    | map entries => cases notMap
    | _ => rfl

theorem lookup_pruneEntries_field {c : Component} {entries : Tree.Entries} {f : Field}
    (hf : f ∈ c.fields) :
    (Tree.pruneEntries c entries).lookup f.name =
      (entries.lookup f.name).map (pruning.under f.shape) := by
  have hunder : c.pruneUnder f.name = pruning.under f.shape := by
    funext t
    rw [Component.pruneUnder, nesting?_of_mem hf]
    rfl
  rw [lookup_pruneEntries (knows_ok.mpr (.inr ⟨f, hf, rfl⟩)), hunder]

-- ---------------------------------------------------------------------------
-- Lenient and strict parses
-- ---------------------------------------------------------------------------

theorem pruning_faithful {β : Type} (ctx : Context β) :
    pruning.Faithful (ctx.under .lenient) (ctx.under .strict) := by
  intro kind entries inherited h
  rw [← agree_eq]
  cases hc : kind.component? (.map entries) with
  | none =>
    -- A node of no component is left as it is, since its keys are never checked.
    have hnode : pruning.node kind entries = entries := by simp only [pruning, hc]
    rw [hnode]
    refine dispatch_agree congruence_eq (fun _ _ => congrArg _) (agree_eq.mpr rfl)
      (agree_eq.mpr rfl) (fun types name name' hname _ _ => ?_) fun types name c hn hfind => ?_
    · subst hname
      exact agree_eq.mpr rfl
    · rw [component?_of_typeName hn, hfind] at hc
      cases hc
  | some c =>
    have hnode : pruning.node kind entries = Tree.pruneEntries c entries := by
      simp only [pruning, hc]
    rw [hnode]
    refine dispatch_agree congruence_eq (fun _ _ => congrArg _) (agree_eq.mpr ?_) (agree_eq.mpr ?_)
      (fun types name name' _ hn hfind => ?_) fun types name c' hn hfind => ?_
    · simp only [Instantiation.resolve, resolveType, find?_pruneEntries]
    · simp only [typeName, find?_pruneEntries]
    · rw [component?_of_typeName hn, hfind] at hc
      cases hc
    · rw [component?_of_typeName hn, hfind] at hc
      obtain rfl := Option.some.inj hc
      refine Rewriting.readComponent_agree (ctx.registry_under _ _) ?_
        (fun f hf => lookup_pruneEntries_field hf) h
      have hstrict : (c'.checkKeys .strict (Tree.pruneEntries c' entries)).result = .ok () :=
        checkKeys_strict_ok.mpr knows_pruneEntries
      change Agree _ _ _ (c'.checkKeys .strict _).result
      rw [hstrict]
      exact .ok trivial

theorem lenient_eq_strict_prune {β : Type} (ctx : Context β) (kind : Kind) (tree : Tree)
    (inherited : Instantiation) :
    ((ctx.under .lenient).parse kind tree inherited).result =
      ((ctx.under .strict).parse kind (tree.prune kind) inherited).result :=
  Rewriting.parse_eq (ctx.registry_under _ _) (pruning_faithful ctx) kind tree inherited

end SolverConfig
