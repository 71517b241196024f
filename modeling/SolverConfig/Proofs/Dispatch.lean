import SolverConfig.Dispatch
import SolverConfig.Proofs.Basic
import SolverConfig.Proofs.Vocabularies

/-!
# The dispatch table follows the generics

A component is registered for exactly the pairs of types that its generics admit, once for each,
and what it is registered with there is its own parameter set, with the types that it is generic
over.
-/

namespace SolverConfig

theorem Signature.typeName_info (s : Signature) : s.info.typeName = s.component.name := by
  obtain ⟨c, v?, i?⟩ := s
  cases c <;> rfl

namespace Component

def signature (c : Component) (types : Instantiation) : Signature :=
  match c.generics with
  | .none => ⟨c, none, none⟩
  | .value => ⟨c, some types.value, none⟩
  | .valueIndex => ⟨c, some types.value, some types.index⟩

/-- Components generic over an index type need one; all others take every pair of types. -/
def supports (c : Component) (types : Instantiation) : Bool :=
  match c.generics with
  | .valueIndex => types.index != .void
  | _ => true

variable (c : Component) (types : Instantiation)

@[simp] theorem component_signature : (c.signature types).component = c := by
  unfold signature
  cases c.generics <;> rfl

@[simp] theorem family_signature : (c.signature types).family = c.family := by
  cases c <;> rfl

theorem info_signature : (c.signature types).info =
    ⟨c.name, (c.signature types).value, (c.signature types).index⟩ := by
  cases c <;> rfl

end Component

theorem Instantiation.mem_all (types : Instantiation) : types ∈ Instantiation.all := by
  obtain ⟨v, i⟩ := types
  simp [Instantiation.all, LawfulVocabulary.mem_all]

-- ---------------------------------------------------------------------------
-- Registrations
-- ---------------------------------------------------------------------------

namespace DispatchTable

/-- What the generics of a component ask to be registered. -/
def entries (c : Component) : DispatchTable :=
  (Instantiation.all.filter c.supports).map fun types => ((c, types), c.signature types)

theorem typeFree_eq {c : Component} (h : c.generics = .none) :
    typeFree c (.free c) = entries c := by
  have hs : c.supports = fun _ => true := by
    funext types
    simp [Component.supports, h]
  simp [typeFree, entries, hs, Component.signature, h, Signature.free]

theorem value_eq {c : Component} (h : c.generics = .value) :
    value c (.overValue c) = entries c := by
  simp [value, valueGeneric, entries, Component.supports, Component.signature, h,
    Instantiation.all, Vocabulary.all, Signature.overValue]

theorem valueIndex_eq {c : Component} (h : c.generics = .valueIndex) :
    valueIndex c (.overValueIndex c) = entries c := by
  simp [valueIndex, integerIndices, valueIndexGeneric, entries, Component.supports,
    Component.signature, h, Instantiation.all, Vocabulary.all, Signature.overValueIndex]

def order : List Component :=
  [.cg, .bicg, .bicgstab, .cgs, .fcg, .gmres, .idr, .ir, .lowerTrs, .upperTrs, .jacobi, .ilu,
    .iteration, .time, .combined, .residualNorm, .implicitResidualNorm]

theorem mem_order (c : Component) : c ∈ order := by cases c <;> decide

theorem builtins_eq : builtins = order.flatMap entries := by
  simp (disch := decide) only [builtins, solvers, preconditioners, criteria, order, typeFree_eq,
    value_eq, valueIndex_eq, List.flatMap_cons, List.flatMap_nil, List.append_nil,
    List.append_assoc]

theorem mem_entries {c c' : Component} {types : Instantiation} {s : Signature} :
    ((c, types), s) ∈ entries c' ↔ c = c' ∧ c.supports types = true ∧ s = c.signature types := by
  simp only [entries, List.mem_map, List.mem_filter, Prod.mk.injEq]
  constructor
  · rintro ⟨types, ⟨-, hs⟩, ⟨rfl, rfl⟩, rfl⟩
    exact ⟨rfl, hs, rfl⟩
  · rintro ⟨rfl, hs, rfl⟩
    exact ⟨types, ⟨types.mem_all, hs⟩, ⟨rfl, rfl⟩, rfl⟩

theorem mem_builtins {c : Component} {types : Instantiation} {s : Signature} :
    ((c, types), s) ∈ builtins ↔ c.supports types = true ∧ s = c.signature types := by
  rw [builtins_eq, List.mem_flatMap]
  simp only [mem_entries]
  constructor
  · rintro ⟨c', -, rfl, h⟩
    exact h
  · exact fun h => ⟨c, mem_order c, rfl, h⟩

/-- Nothing is registered twice for the same pair of types. -/
theorem nodup_builtins : (builtins.map Prod.fst).Nodup := by
  have hkeys (c : Component) : (entries c).map Prod.fst =
      (Instantiation.all.filter c.supports).map (Prod.mk c) := by
    simp [entries]
  have hall : Instantiation.all.Nodup := by decide
  have horder : order.Nodup := by decide
  simp only [builtins_eq, List.map_flatMap, hkeys]
  rw [List.nodup_flatMap]
  constructor
  · intro c _
    exact (hall.filter _).map fun _ _ h => (Prod.mk.inj h).2
  · refine horder.imp fun hne key hc hc' => hne ?_
    obtain ⟨_, -, rfl⟩ := List.mem_map.mp hc
    obtain ⟨_, -, h⟩ := List.mem_map.mp hc'
    exact (congrArg Prod.fst h).symm

end DispatchTable

-- ---------------------------------------------------------------------------
-- What is registered for a pair of types
-- ---------------------------------------------------------------------------

namespace Component

variable {c : Component} {types : Instantiation}

theorem parameterSet_eq : c.parameterSet types =
    if c.supports types then .ok (c.signature types) else .error (.unsupported c types) := by
  unfold parameterSet
  cases h : DispatchTable.builtins.lookup (c, types) with
  | some s =>
    obtain ⟨hs, rfl⟩ := DispatchTable.mem_builtins.mp (mem_of_lookup h)
    simp [hs]
  | none =>
    have hs : ¬c.supports types = true := fun hs =>
      lookup_eq_none_iff.mp h (List.mem_map.mpr ⟨_, DispatchTable.mem_builtins.mpr ⟨hs, rfl⟩, rfl⟩)
    simp [hs]

@[simp] theorem isSupported_eq : c.isSupported types = c.supports types := by
  rw [isSupported, parameterSet_eq]
  cases c.supports types <;> rfl

end Component

end SolverConfig
