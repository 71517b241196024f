import SolverConfig.Parse.Basic
import SolverConfig.Proofs.Dispatch
import SolverConfig.Proofs.Tables

/-!
# What a parse that succeeds has checked

Each lemma reads the success of one stage of a parse as the rule that it decides: which types are in
effect for a node, which component it names, and what is checked before any value is read.
-/

namespace SolverConfig

open Vocabulary (names find?)

-- ---------------------------------------------------------------------------
-- Names in a node
-- ---------------------------------------------------------------------------

/-- What a node names under a key: an element of its own if it has the key, else the one that is
inherited. -/
def InEffect {α : Type} [Vocabulary α] (key : TypeKey) (node : Tree) (inherited a : α) : Prop :=
  match node.find? key.text with
  | some t => ∃ s, t = .text s ∧ names s a = true
  | none => a = inherited

def TypesInEffect (node : Tree) (inherited types : Instantiation) : Prop :=
  InEffect .valueType node inherited.value types.value ∧
    InEffect .indexType node inherited.index types.index

/-- The component that a node names with its `Type`, or without one the component asked for. -/
def NamesComponent (kind : Kind) (node : Tree) (c : Component) : Prop :=
  match node.find? TypeKey.type.text with
  | some t => ∃ s, t = .text s ∧ names s c = true
  | none => kind = .component c

theorem typeText_ok {key : TypeKey} {t : Tree} {s : String} :
    typeText key t = .ok s ↔ t = .text s := by
  cases t <;> simp [typeText, Tree.asText?]

theorem resolveType_ok {α : Type} [Vocabulary α] [LawfulVocabulary α] {key : TypeKey} {node : Tree}
    {inherited a : α} :
    resolveType α key node inherited = .ok a ↔ InEffect key node inherited a := by
  unfold resolveType InEffect
  cases node.find? key.text with
  | none => simp [eq_comm]
  | some t =>
    dsimp only
    cases h : typeText key t with
    | error e =>
      have hs : ∀ s, t ≠ .text s := fun s hs => by simp [typeText_ok.mpr hs] at h
      simp [hs]
    | ok s =>
      rw [typeText_ok] at h
      subst h
      cases hf : find? α s <;> simp [← LawfulVocabulary.find?_eq_some_iff, hf]

theorem resolve_ok {node : Tree} {inherited types : Instantiation} :
    Instantiation.resolve node inherited = .ok types ↔ TypesInEffect node inherited types := by
  obtain ⟨value, index⟩ := types
  simp only [Instantiation.resolve, TypesInEffect, ← resolveType_ok]
  cases resolveType ValueType .valueType node inherited.value with
  | error e => simp
  | ok v => cases resolveType IndexType .indexType node inherited.index <;> simp

theorem TypesInEffect.unique {node : Tree} {inherited types types' : Instantiation}
    (h : TypesInEffect node inherited types) (h' : TypesInEffect node inherited types') :
    types = types' := by
  rw [← resolve_ok] at h h'
  exact Except.ok.inj (h.symm.trans h')

theorem typeName_ok {kind : Kind} {node : Tree} {c : Component} :
    (∃ name, typeName kind node = .ok name ∧ find? Component name = some c) ↔
      NamesComponent kind node c := by
  unfold typeName NamesComponent
  cases node.find? TypeKey.type.text with
  | some t => simp [typeText_ok, LawfulVocabulary.find?_eq_some_iff]
  | none =>
    cases kind with
    | family f => simp
    | component expected =>
      have h : find? Component expected.name = some expected :=
        LawfulVocabulary.find?_eq_some_iff.mpr (Vocabulary.names_name expected)
      simp [h]

namespace NamesComponent

variable {kind : Kind} {node : Tree} {c c' : Component} {s : String}

theorem of_text (ht : node.find? TypeKey.type.text = some (.text s)) (hs : names s c = true) :
    NamesComponent kind node c := by
  rw [NamesComponent, ht]
  exact ⟨s, rfl, hs⟩

theorem of_absent (ht : node.find? TypeKey.type.text = none) :
    NamesComponent (.component c) node c := by
  rw [NamesComponent, ht]

theorem unique (h : NamesComponent kind node c) (h' : NamesComponent kind node c') : c = c' := by
  obtain ⟨name, hname, hfind⟩ := typeName_ok.mpr h
  obtain ⟨name', hname', hfind'⟩ := typeName_ok.mpr h'
  cases hname.symm.trans hname'
  exact Option.some.inj (hfind.symm.trans hfind')

end NamesComponent

-- ---------------------------------------------------------------------------
-- Checks before any value is read
-- ---------------------------------------------------------------------------

theorem knows_ok {c : Component} {key : String} :
    c.knows key = true ↔ (∃ k : TypeKey, key = k.text) ∨ ∃ f ∈ c.fields, key = f.name := by
  have hreserved : Component.isReserved key = true ↔ ∃ k : TypeKey, key = k.text := by
    simp only [Component.isReserved, List.any_eq_true, beq_iff_eq]
    constructor
    · rintro ⟨k, -, rfl⟩
      exact ⟨k, rfl⟩
    · rintro ⟨k, rfl⟩
      exact ⟨k, by cases k <;> simp [TypeKey.all], rfl⟩
  simp [Component.knows, hreserved, Component.field?, eq_comm (a := key)]

theorem admits_ok {kind : Kind} {c : Component} :
    kind.admits c = true ↔ kind = .family c.family ∨ kind = .component c := by
  cases kind <;> simp [Kind.admits, eq_comm (b := c), eq_comm (b := c.family)]

theorem toFamily_of_admits {kind : Kind} {c : Component} (h : kind.admits c = true) :
    kind.toFamily = c.family := by
  rcases admits_ok.mp h with rfl | rfl
  · rfl
  · rfl

theorem supports_ok {c : Component} {types : Instantiation} :
    c.supports types = true ↔ (c.generics = .valueIndex → types.index ≠ .void) := by
  unfold Component.supports
  cases c.generics <;> simp

theorem select_ok {c : Component} {kind : Kind} {types : Instantiation} {s : Signature} :
    c.select kind types = .ok s ↔
      kind.admits c = true ∧ c.supports types = true ∧ s = c.signature types := by
  unfold Component.select
  cases kind.admits c <;> cases h : c.supports types <;>
    simp [Component.parameterSet_eq, h, eq_comm]

theorem checkKeys_strict_ok {c : Component} {entries : Tree.Entries} {u : Unit} :
    (c.checkKeys .strict entries).result = .ok u ↔ ∀ entry ∈ entries, c.knows entry.1 = true := by
  have h : (entries.map Prod.fst).filter (fun key => !c.knows key) = [] ↔
      ∀ entry ∈ entries, c.knows entry.1 = true := by
    simp [List.filter_eq_nil_iff]
  rw [← h]
  unfold Component.checkKeys
  cases (entries.map Prod.fst).filter (fun key => !c.knows key) <;> simp

theorem checkKeys_ok {c : Component} {strictness : Strictness} {entries : Tree.Entries} :
    (∃ u, (c.checkKeys strictness entries).result = .ok u) ↔
      (strictness = .strict → ∀ entry ∈ entries, c.knows entry.1 = true) := by
  cases strictness with
  | strict => simp [checkKeys_strict_ok]
  | lenient => simp [Component.checkKeys, Outcome.warn]

theorem checkShapes_ok {c : Component} {entries : Tree.Entries} {fields : List Field} {u : Unit} :
    c.checkShapes entries fields = .ok u ↔ ∀ f ∈ fields,
      (f.required = true → (entries.lookup f.name).isSome = true) ∧
        ∀ t, entries.lookup f.name = some t → f.shape.accepts t = true := by
  induction fields with
  | nil => simp [Component.checkShapes]
  | cons f rest ih =>
    rw [List.forall_mem_cons, ← ih, Component.checkShapes]
    cases entries.lookup f.name with
    | none => cases f.required <;> simp
    | some t => by_cases h : f.shape.accepts t = true <;> simp [h]

end SolverConfig
