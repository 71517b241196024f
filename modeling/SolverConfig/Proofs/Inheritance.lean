import SolverConfig.Proofs.Descent

/-!
# Types are inherited lexically

The builder of a node is instantiated with the types that the nearest nodes on the way up to the
root name, whatever stands elsewhere in the tree. The value type and the index type are each looked
for on their own.
-/

namespace SolverConfig

theorem signature_eq (c : Component) (types : Instantiation) :
    c.signature types =
      ⟨c, if c.generics = .none then none else some types.value,
        if c.generics = .valueIndex then some types.index else none⟩ := by
  unfold Component.signature
  cases c.generics <;> rfl

theorem Nearest.unique {α : Type} [Vocabulary α] [LawfulVocabulary α] {key : TypeKey}
    {nodes others : List Tree} {inherited a b : α} (ha : Nearest key nodes inherited a)
    (hb : Nearest key others inherited b) (hsame : nearest? key others = nearest? key nodes) :
    a = b := by
  unfold Nearest at ha hb
  rw [hsame] at hb
  cases hn : nearest? key nodes with
  | some t =>
    simp only [hn] at ha hb
    obtain ⟨s, rfl, ha⟩ := ha
    obtain ⟨_, ⟨⟩, hb⟩ := hb
    exact LawfulVocabulary.eq_of_names ha hb
  | none =>
    simp only [hn] at ha hb
    rw [ha, hb]

section
variable {β : Type} {ctx : Context β} {kind : Kind} {root : Tree} {inherited : Instantiation}
  {d : Deferred} {path : List (String × Nat)} {here : Kind} {node : Tree} {above : List Tree}
  {c : Component}

theorem signature_of_reached (h : (ctx.parse kind root inherited).result = .ok d)
    (hr : Descends kind root path here node above) (hc : NamesComponent here node c) :
    ∃ types nested, NearestTypes (node :: above) inherited types ∧ d.at? path = some nested ∧
      here.admits c = true ∧ nested.signature = c.signature types := by
  obtain ⟨around, nested, haround, hnested, hat⟩ := parse_reached_ok h hr
  obtain ⟨types, params, htypes, hkind, rfl, -⟩ := parse_ok_unbound hnested hc
  exact ⟨types, _, haround.cons htypes, hat, hkind, rfl⟩

end

/-- The builder of a node that names a component is of the family asked for there and has the types
that it is generic over: for each, what the nearest node on the way up names. Nothing else in the
tree matters: any node of the component that has the same nearest types, in any tree and under any
registry, gives a builder of the same signature. -/
theorem parse_reached_signature {β : Type} (ctx : Context β) {kind : Kind} {root : Tree}
    {inherited : Instantiation} {d : Deferred}
    (h : (ctx.parse kind root inherited).result = .ok d)
    {path : List (String × Nat)} {here : Kind} {node : Tree} {above : List Tree} {c : Component}
    (hr : Descends kind root path here node above) (hc : NamesComponent here node c) :
    ∃ v i nested, Nearest .valueType (node :: above) inherited.value v ∧
      Nearest .indexType (node :: above) inherited.index i ∧ d.at? path = some nested ∧
      nested.family = c.family ∧ c.family = here.toFamily ∧
      nested.signature =
        ⟨c, if c.generics = .none then none else some v,
          if c.generics = .valueIndex then some i else none⟩ ∧
      nested.info =
        ⟨c.name, if c.generics = .none then none else some v,
          if c.generics = .valueIndex then some i else none⟩ ∧
      ∀ {γ : Type} (ctx' : Context γ) (kind' here' : Kind) (root' node' : Tree) (d' : Deferred)
        (path' : List (String × Nat)) (above' : List Tree),
        (ctx'.parse kind' root' inherited).result = .ok d' →
        Descends kind' root' path' here' node' above' → NamesComponent here' node' c →
        (∀ key : TypeKey, key ≠ .type →
          nearest? key (node' :: above') = nearest? key (node :: above)) →
        ∃ nested', d'.at? path' = some nested' ∧ nested'.signature = nested.signature := by
  obtain ⟨⟨v, i⟩, nested, ⟨hv, hi⟩, hat, hkind, hs⟩ := signature_of_reached h hr hc
  have hfamily : nested.family = c.family := by
    rw [Deferred.family, hs, Component.family_signature]
  refine ⟨v, i, nested, hv, hi, hat, hfamily, (toFamily_of_admits hkind).symm,
    hs.trans (signature_eq c ⟨v, i⟩), ?_, ?_⟩
  · rw [Deferred.info, hs, Component.info_signature, signature_eq]
  intro γ ctx' kind' here' root' node' d' path' above' h' hr' hc' hsame
  obtain ⟨⟨v', i'⟩, nested', ⟨hv', hi'⟩, hat', -, hs'⟩ := signature_of_reached h' hr' hc'
  obtain rfl : v = v' := hv.unique hv' (hsame .valueType (by decide))
  obtain rfl : i = i' := hi.unique hi' (hsame .indexType (by decide))
  exact ⟨nested', hat', hs'.trans hs.symm⟩

theorem parse_reached_signature_jacobi :
    let inner : Tree := .map [("Type", .text "preconditioner::Jacobi")]
    let outer : Tree := .map [("Type", .text "solver::Ir"), ("IndexType", .text "int64"),
      ("criteria", .array []), ("solver", inner)]
    let root (criterion : Tree.Entries) : Tree := .map [("Type", .text "solver::Ir"),
      ("ValueType", .text "float"), ("criteria", .map criterion), ("solver", outer)]
    let time : Tree.Entries := [("Type", .text "Time")]
    ∃ d nested,
      ((Context.bare .strict).parse (.family .linOp)
        (root (time ++ [("ValueType", .text "complex<double>")])) ⟨.float64, .int32⟩).result =
          .ok d ∧
      d.at? [("solver", 0), ("solver", 0)] = some nested ∧
      nested.info = ⟨"preconditioner::Jacobi", some .float32, some .int64⟩ ∧
      ∃ d' nested',
        ((Context.bare .lenient).parse (.family .linOp) (root time) ⟨.float64, .int32⟩).result =
          .ok d' ∧
        d'.at? [("solver", 0), ("solver", 0)] = some nested' ∧
        nested'.signature = nested.signature := by
  intro inner outer root time
  have houter : NamesComponent (.family .linOp) outer .ir := ⟨_, rfl, by decide⟩
  have hinner : NamesComponent (.family .linOp) inner .jacobi := ⟨_, rfl, by decide⟩
  have hsolver : Field.optional "solver" (.object .linOp) ∈ Component.ir.fields :=
    List.mem_cons_of_mem _ List.mem_cons_self
  have hreached (criterion : Tree.Entries) : Descends (.family .linOp) (root criterion)
      [("solver", 0), ("solver", 0)] (.family .linOp) inner [outer, root criterion] := by
    have hroot : NamesComponent (.family .linOp) (root criterion) .ir := ⟨_, rfl, by decide⟩
    have houter' := Descends.field .root hroot hsolver (.inl rfl) rfl
      (rfl : Tree.objectAt? _ 0 = some outer) rfl
    exact houter'.field houter hsolver (.inl rfl) rfl (rfl : Tree.objectAt? _ 0 = some inner) rfl
  have hvalue (criterion : Tree.Entries) :
      Nearest .valueType [inner, outer, root criterion] .float64 ValueType.float32 :=
    ⟨_, rfl, by decide⟩
  have hindex (criterion : Tree.Entries) :
      Nearest .indexType [inner, outer, root criterion] .int32 IndexType.int64 :=
    ⟨_, rfl, by decide⟩
  have hparsed : ((Context.bare .strict).parse (.family .linOp)
      (root (time ++ [("ValueType", .text "complex<double>")])) ⟨.float64, .int32⟩).result =
        .ok _ := rfl
  have hparsed' : ((Context.bare .lenient).parse (.family .linOp) (root time)
      ⟨.float64, .int32⟩).result = .ok _ := rfl
  obtain ⟨v, i, nested, hv, hi, hat, -, -, -, hinfo, hsame⟩ :=
    parse_reached_signature _ hparsed (hreached _) hinner
  obtain rfl := (hvalue _).unique hv rfl
  obtain rfl := (hindex _).unique hi rfl
  obtain ⟨nested', hat', hs⟩ := hsame _ _ _ _ _ _ _ _ hparsed' (hreached time) hinner
    fun key _ => by cases key <;> rfl
  exact ⟨_, nested, hparsed, hat, hinfo, _, nested', hparsed', hat', hs⟩

end SolverConfig
