import SolverConfig.Proofs.Rewriting

/-!
# Spellings

A text that names a component or a type may be its alias. Which of the names it is makes no
difference: after the look-up only what is named is spoken of.
-/

namespace SolverConfig

open Vocabulary

-- ---------------------------------------------------------------------------
-- Canonical trees
-- ---------------------------------------------------------------------------

/-- The canonical name of what a text names, or the text if it names nothing. -/
def Vocabulary.canonical (α : Type) [Vocabulary α] (s : String) : String :=
  ((find? α s).map name).getD s

def TypeKey.canonical : TypeKey → String → String
  | .type => Vocabulary.canonical Component
  | .valueType => Vocabulary.canonical ValueType
  | .indexType => Vocabulary.canonical IndexType

namespace Tree

def mapText (f : String → String) : Tree → Tree
  | .text s => .text (f s)
  | t => t

/-- A tree that is no node: under a type key a text becomes the canonical name of what it names. -/
def canonicalUnder (key : String) (t : Tree) : Tree :=
  match TypeKey.all.find? fun k => k.text == key with
  | some k => t.mapText k.canonical
  | none => t

mutual

/-- The node with the canonical names for its types, and so are the nodes below it. Where there may
be many objects, an array stands for those in it. -/
def canonicalAs (kind : Kind) (many : Bool) : Tree → Tree
  | .map entries => .map (canonicalEntries (kind.component? (.map entries)) entries)
  | .array items => if many then .array (canonicalItems kind items) else .array items
  | .empty => .empty
  | .boolean b => .boolean b
  | .integer n => .integer n
  | .real x => .real x
  | .text s => .text s
termination_by structural t => t

def canonicalEntries (c? : Option Component) : List (String × Tree) → Entries
  | [] => []
  | (key, t) :: rest =>
    (key, match c?.bind fun c => c.nesting? key with
      | some (f, many) => t.canonicalAs (.family f) many
      | none => t.canonicalUnder key) :: canonicalEntries c? rest
termination_by structural entries => entries

def canonicalItems (kind : Kind) : List Tree → List Tree
  | [] => []
  | t :: rest => t.canonicalAs kind false :: canonicalItems kind rest
termination_by structural items => items

end

def canonical (kind : Kind) (t : Tree) : Tree := t.canonicalAs kind false

end Tree

def Tree.respell (c? : Option Component) (key : String) (t : Tree) : Tree :=
  match c?.bind fun c => c.nesting? key with
  | some (f, many) => t.canonicalAs (.family f) many
  | none => t.canonicalUnder key

section
variable {c? : Option Component} {c : Component} {entries : Tree.Entries}

theorem keys_canonicalEntries :
    (Tree.canonicalEntries c? entries).map Prod.fst = entries.map Prod.fst := by
  induction entries with
  | nil => rfl
  | cons entry rest ih => rw [Tree.canonicalEntries, List.map_cons, List.map_cons, ih]

theorem lookup_canonicalEntries (key : String) :
    (Tree.canonicalEntries c? entries).lookup key = (entries.lookup key).map (.respell c? key) := by
  induction entries with
  | nil => rfl
  | cons entry rest ih =>
    obtain ⟨k, t⟩ := entry
    rw [Tree.canonicalEntries, List.lookup_cons, List.lookup_cons]
    cases hk : key == k with
    | true =>
      obtain rfl : key = k := beq_iff_eq.mp hk
      rfl
    | false => exact ih

theorem canonicalItems_eq_map (kind : Kind) (items : List Tree) :
    Tree.canonicalItems kind items = items.map (Tree.canonicalAs kind false) := by
  induction items with
  | nil => rfl
  | cons t rest ih => rw [Tree.canonicalItems, ih, List.map_cons]

theorem find?_canonicalEntries (key : TypeKey) :
    (Tree.map (Tree.canonicalEntries c? entries)).find? key.text =
      ((Tree.map entries).find? key.text).map (.mapText key.canonical) := by
  have hrespell : Tree.respell c? key.text = .mapText key.canonical := by
    funext t
    have hnone : (c?.bind fun c => c.nesting? key.text) = none := by
      cases c? with
      | none => rfl
      | some c => exact nesting?_typeKey c key
    rw [Tree.respell, hnone]
    cases key <;> rfl
  rw [← hrespell]
  exact lookup_canonicalEntries key.text

end

def respelling : Rewriting where
  node kind entries := Tree.canonicalEntries (kind.component? (.map entries)) entries
  tree := Tree.canonicalAs
  map _ _ _ := rfl
  items kind items := congrArg Tree.array (canonicalItems_eq_map kind items)
  array _ _ := rfl
  leaf kind many t notArray notMap := by
    cases t with
    | array items => cases notArray
    | map entries => cases notMap
    | _ => rfl

theorem canonicalUnder_field {c : Component} {f : Field} (hf : f ∈ c.fields) (t : Tree) :
    t.canonicalUnder f.name = t := by
  have h : ∀ f ∈ c.fields, (TypeKey.all.find? fun k => k.text == f.name) = none := by
    cases c <;> decide
  rw [Tree.canonicalUnder, h f hf]

theorem lookup_canonicalEntries_field {c : Component} {entries : Tree.Entries} {f : Field}
    (hf : f ∈ c.fields) :
    (Tree.canonicalEntries (some c) entries).lookup f.name =
      (entries.lookup f.name).map (respelling.under f.shape) := by
  have hunder : Tree.respell (some c) f.name = respelling.under f.shape := by
    funext t
    rw [Tree.respell, Option.bind_some, nesting?_of_mem hf, canonicalUnder_field hf]
    rfl
  rw [lookup_canonicalEntries, hunder]

-- ---------------------------------------------------------------------------
-- Names
-- ---------------------------------------------------------------------------

section
variable {α : Type} [Vocabulary α] {s : String} {a : α}

theorem canonical_of_find? (h : find? α s = some a) : canonical α s = name a := by
  rw [canonical, h]
  rfl

theorem canonical_of_not_found (h : find? α s = none) : canonical α s = s := by
  rw [canonical, h]
  rfl

theorem find?_canonical [LawfulVocabulary α] (s : String) :
    find? α (canonical α s) = find? α s := by
  cases h : find? α s with
  | none => rw [canonical_of_not_found h, h]
  | some a =>
    rw [canonical_of_find? h]
    exact LawfulVocabulary.find?_eq_some_iff.mpr (names_name a)

end

-- ---------------------------------------------------------------------------
-- Parsing a canonical tree
-- ---------------------------------------------------------------------------

theorem typeText_mapText (key : TypeKey) (f : String → String) (t : Tree) :
    typeText key (t.mapText f) = (typeText key t).map f := by
  cases t <;> rfl

section
variable {c? : Option Component} {entries : Tree.Entries}

/-- A type in effect is that named by the text, or the text is what an error quotes. -/
theorem resolveType_canonical {α : Type} [Vocabulary α] [LawfulVocabulary α] {key : TypeKey}
    (hkey : key.canonical = canonical α) (inherited : α) :
    resolveType α key (.map (Tree.canonicalEntries c? entries)) inherited =
      resolveType α key (.map entries) inherited := by
  unfold resolveType
  rw [find?_canonicalEntries, hkey]
  cases (Tree.map entries).find? key.text with
  | none => rfl
  | some t =>
    simp only [Option.map_some, typeText_mapText]
    cases typeText key t with
    | error e => rfl
    | ok s =>
      simp only [Except.map, find?_canonical]
      cases hs : find? α s with
      | some a => rfl
      | none => simp only [canonical_of_not_found hs]

theorem resolve_canonical (inherited : Instantiation) :
    Instantiation.resolve (.map (Tree.canonicalEntries c? entries)) inherited =
      Instantiation.resolve (.map entries) inherited := by
  have hvalue : TypeKey.valueType.canonical = canonical ValueType := rfl
  have hindex : TypeKey.indexType.canonical = canonical IndexType := rfl
  unfold Instantiation.resolve
  rw [resolveType_canonical hvalue, resolveType_canonical hindex]

theorem typeName_canonical (kind : Kind) :
    Agree (· = ·) (fun s s' => s' = s ∨ s' = canonical Component s) (typeName kind (.map entries))
      (typeName kind (.map (Tree.canonicalEntries c? entries))) := by
  unfold typeName
  rw [find?_canonicalEntries]
  cases (Tree.map entries).find? TypeKey.type.text with
  | none =>
    cases kind with
    | family f => exact .error rfl
    | component c => exact .ok (.inl rfl)
  | some t =>
    simp only [Option.map_some, typeText_mapText]
    cases typeText .type t with
    | error e => exact .error rfl
    | ok s => exact .ok (.inr rfl)

end

theorem readCustom_no_builders {β : Type} {ctx : Context β} (hb : ctx.registry.builders = [])
    (kind : Kind) (s : String) (node : Tree) (types : Instantiation) :
    ctx.readCustom kind s node types = .ofExcept (.error (.unknownType TypeKey.type s)) := by
  have hnone : ctx.registry.builder? s = none := by rw [Registry.builder?, hb, List.lookup_nil]
  simp only [Context.readCustom, hnone]

theorem respelling_faithful {β : Type} {ctx : Context β} (hb : ctx.registry.builders = []) :
    respelling.Faithful ctx ctx := by
  intro kind entries inherited h
  rw [← agree_eq]
  refine dispatch_agree congruence_eq (fun s s' hs => ?_)
    (agree_eq.mpr (resolve_canonical inherited).symm) (typeName_canonical kind)
    (fun types s s' hs _ hfind => ?_) fun types s c hn hfind => ?_
  · rcases hs with rfl | rfl
    · rfl
    · exact (find?_canonical s).symm
  · -- The text of a `Type` that names no component is quoted as it is.
    have hsame : s' = s := hs.elim id fun h => h.trans (canonical_of_not_found hfind)
    rw [hsame, readCustom_no_builders hb, readCustom_no_builders hb]
    exact agree_eq.mpr rfl
  · rw [← component?_of_typeName hn] at hfind
    have hnode : respelling.node kind entries = Tree.canonicalEntries (some c) entries := by
      simp only [respelling, hfind]
    rw [hnode]
    refine Rewriting.readComponent_agree rfl ?_ (fun f hf => lookup_canonicalEntries_field hf) h
    simp only [Component.checkKeys, keys_canonicalEntries]
    exact .refl (fun _ => rfl) fun _ _ => trivial

/-- Without custom builders a parse gives the same builder or the same error whether the types of
the nodes are spelled by aliases or by canonical names. -/
theorem parse_canonical {β : Type} (ctx : Context β) (hb : ctx.registry.builders = [])
    (kind : Kind) (tree : Tree) (inherited : Instantiation) :
    (ctx.parse kind (tree.canonical kind) inherited).result =
      (ctx.parse kind tree inherited).result :=
  (Rewriting.parse_eq rfl (respelling_faithful hb) kind tree inherited).symm

theorem parse_canonical_nested :
    let ctx := Context.bare .strict
    let tree (value iteration complex long : String) : Tree :=
      .map [("Type", .text "solver::Cg"), ("ValueType", .text value),
        ("criteria", .array [.map [("Type", .text "Time"), ("time_limit", .integer 10)],
          .map [("max_iters", .integer 5), ("Type", .text iteration)]]),
        ("preconditioner", .map [("Type", .text "preconditioner::Jacobi"),
          ("ValueType", .text complex), ("IndexType", .text long)])]
    let aliases := tree "double" "stop::Iteration" "complex<float>" "long"
    let names := tree "float64" "Iteration" "complex<float32>" "int64"
    ctx.registry.builders = [] ∧ aliases.canonical (.family .linOp) = names ∧
      (ctx.parse (.family .linOp) names ⟨.float32, .int32⟩).result =
        (ctx.parse (.family .linOp) aliases ⟨.float32, .int32⟩).result := by
  intro ctx tree aliases names
  have hnames : aliases.canonical (.family .linOp) = names := by rfl
  refine ⟨rfl, hnames, ?_⟩
  rw [← hnames]
  exact parse_canonical ctx rfl (.family .linOp) aliases ⟨.float32, .int32⟩

end SolverConfig
