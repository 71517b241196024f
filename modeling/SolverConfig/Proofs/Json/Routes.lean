import Mathlib.Data.List.Nodup
import SolverConfig.Proofs.Json.Trees

/-!
# Two ways from a text to a tree

A text is read into its tree at once, where no object may have a key twice, or into a generic value
of which the tree is taken. There the last value of a key counts, at the place of the first, though
the numbers in the others must be numbers still. Either way arrays and objects must not nest too
deep.
-/

namespace SolverConfig.Json

-- ---------------------------------------------------------------------------
-- At once
-- ---------------------------------------------------------------------------

theorem treeBuilder_enter_ok {built after : Tree.Entries} {entry : String × Tree} :
    treeBuilder.enter built entry = .ok after ↔
      entry.1 ∉ built.map Prod.fst ∧ after = built ++ [entry] := by
  rw [← lookup_eq_none_iff]
  change (if (built.lookup entry.1).isSome then _ else _) = _ ↔ _
  cases built.lookup entry.1 <;> simp [@eq_comm _ after]

theorem treeBuilder_foldlM_ok {built vs after : Tree.Entries}
    (hbuilt : (built.map Prod.fst).Nodup) : vs.foldlM treeBuilder.enter built = .ok after ↔
      ((built ++ vs).map Prod.fst).Nodup ∧ after = built ++ vs := by
  induction vs generalizing built with
  | nil => simp [hbuilt, pure, Except.pure, @eq_comm _ after]
  | cons v vs ih =>
    have hsplit : built ++ v :: vs = built ++ [v] ++ vs := by simp
    have hstep : (v :: vs).foldlM treeBuilder.enter built = .ok after ↔
        v.1 ∉ built.map Prod.fst ∧ vs.foldlM treeBuilder.enter (built ++ [v]) = .ok after := by
      rw [List.foldlM_cons]
      refine bind_ok.trans ?_
      simp only [treeBuilder_enter_ok, and_assoc, exists_and_left, exists_eq_left]
    have hadded : ((built ++ [v]).map Prod.fst).Nodup ↔ v.1 ∉ built.map Prod.fst := by
      rw [List.map_append, List.map_singleton, ← List.concat_eq_append, List.nodup_concat]
      exact and_iff_left hbuilt
    rw [hstep, hsplit]
    constructor
    · rintro ⟨hv, h⟩
      exact (ih (hadded.mpr hv)).mp h
    · intro h
      have hn : ((built ++ [v]).map Prod.fst).Nodup := by
        rw [List.map_append] at h
        exact h.1.of_append_left
      exact ⟨hadded.mp hn, (ih hn).mpr h⟩

theorem treeBuilder_build_ok {D : Document} {depth : Nat} {t : Tree} :
    treeBuilder.build D depth = .ok t ↔ (D.NestsWithin depth ∧ D.Distinct) ∧ D.ReadsAs t := by
  -- What is inside an array or an object is built one level deeper, so the hypothesis is for every
  -- depth.
  induction D using Document.induction generalizing depth t with
  | number l =>
    have hnumber : ∀ n : Number, treeBuilder.number n = .ok t ↔ n.toTree = .ok t :=
      fun n => mapError_ok
    simp only [Builder.build_number_ok, hnumber, Number.toTree_ok, Document.readsAs_number]
    exact (and_iff_right ⟨.single rfl, .single rfl⟩).symm
  | array items ih =>
    rw [Builder.build_array_ok, Document.nestsWithin_array, Document.distinct_array,
      Document.readsAs_array]
    constructor
    · rintro ⟨below, rfl, trees, htrees, rfl⟩
      obtain ⟨hparts, htrees⟩ := (forall₂_iff fun item hitem _ => ih item hitem).mp htrees
      exact ⟨⟨⟨below, rfl, fun item hitem => (hparts item hitem).1⟩,
        fun item hitem => (hparts item hitem).2⟩, trees, rfl, htrees⟩
    · rintro ⟨⟨⟨below, rfl, hnests⟩, hdistinct⟩, trees, rfl, htrees⟩
      have hparts := fun item hitem => And.intro (hnests item hitem) (hdistinct item hitem)
      have hbuilds := (forall₂_iff fun item hitem _ => ih item hitem).mpr ⟨hparts, htrees⟩
      exact ⟨below, rfl, trees, hbuilds, rfl⟩
  | object entries ih =>
    have hvalues : ∀ below (vs : Tree.Entries),
        List.Forall₂ (Keyed fun D t => treeBuilder.build D below = .ok t) entries vs ↔
          (∀ entry ∈ entries, entry.2.NestsWithin below ∧ entry.2.Distinct) ∧
            List.Forall₂ (Keyed Document.ReadsAs) entries vs := fun below vs =>
      Keyed.forall₂_iff (P := fun D => D.NestsWithin below ∧ D.Distinct) fun entry h _ => ih entry h
    have hnil : (([] : Tree.Entries).map Prod.fst).Nodup := List.nodup_nil
    rw [Builder.build_object_ok, Document.nestsWithin_object, Document.distinct_object,
      Document.readsAs_object]
    constructor
    · rintro ⟨below, rfl, vs, hvs, built, hbuilt, rfl⟩
      obtain ⟨hparts, hvs⟩ := (hvalues below vs).mp hvs
      obtain ⟨hkeys, rfl⟩ := (treeBuilder_foldlM_ok hnil).mp hbuilt
      rw [List.nil_append, ← Keyed.keys_eq hvs] at hkeys
      exact ⟨⟨⟨below, rfl, fun entry h => (hparts entry h).1⟩, hkeys,
        fun entry h => (hparts entry h).2⟩, _, rfl, hvs⟩
    · rintro ⟨⟨⟨below, rfl, hnests⟩, hkeys, hdistinct⟩, vs, rfl, hvs⟩
      have hparts := fun entry h => And.intro (hnests entry h) (hdistinct entry h)
      rw [Keyed.keys_eq hvs] at hkeys
      have hbuilds := (hvalues below vs).mpr ⟨hparts, hvs⟩
      exact ⟨below, rfl, vs, hbuilds, vs, (treeBuilder_foldlM_ok hnil).mpr ⟨hkeys, rfl⟩, rfl⟩
  | null | boolean | text =>
    constructor
    · rintro ⟨⟩
      exact ⟨⟨.single rfl, .single rfl⟩, by constructor⟩
    · rintro ⟨-, ⟨⟩⟩
      rfl

-- ---------------------------------------------------------------------------
-- Through a value
-- ---------------------------------------------------------------------------

namespace Document

mutual

/-- The document that is left when of the values of a key only the last counts, at the place of the
first. -/
def merge : Document → Document
  | .array items => .array (mergeItems items)
  | .object entries => .object (mergeEntries entries [])
  | D => D
termination_by structural D => D

def mergeItems : List Document → List Document
  | [] => []
  | D :: rest => D.merge :: mergeItems rest
termination_by structural items => items

def mergeEntries : List (String × Document) → List (String × Document) →
    List (String × Document)
  | [], merged => merged
  | (key, D) :: rest, merged => mergeEntries rest (putEntry key D.merge merged)
termination_by structural entries => entries

end

inductive Holds : Document → Value → Prop
  | null : Holds .null .null
  | boolean {b : Bool} : Holds (.boolean b) (.boolean b)
  | number {l : NumberLiteral} {n : Number} (number : Number.ofLiteral? l = some n) :
      Holds (.number l) (.number n)
  | text {s : String} : Holds (.text s) (.text s)
  | array {items : List Document} {vs : List Value} (each : List.Forall₂ Holds items vs) :
      Holds (.array items) (.array vs)
  | object {entries : List (String × Document)} {vs : List (String × Value)}
      (each : List.Forall₂ (Keyed Holds) entries vs) : Holds (.object entries) (.object vs)

end Document

theorem putEntry_keyed {α β : Type} {R : α → β → Prop} {entries : List (String × α)}
    {others : List (String × β)} (h : List.Forall₂ (Keyed R) entries others) {a : α} {b : β}
    (hab : R a b) (key : String) :
    List.Forall₂ (Keyed R) (putEntry key a entries) (putEntry key b others) := by
  induction h with
  | nil => exact .cons (.intro hab) .nil
  | cons first rest ih =>
    obtain ⟨h⟩ := first
    unfold putEntry
    split
    · exact .cons (.intro hab) rest
    · exact .cons (.intro h) ih

theorem mergeEntries_keyed {entries before : List (String × Document)}
    {vs valuesBefore built : List (String × Value)}
    (h : List.Forall₂ (Keyed fun D v => D.merge.Holds v) entries vs)
    (hbefore : List.Forall₂ (Keyed Document.Holds) before valuesBefore)
    (hbuilt : vs.foldlM Value.builder.enter valuesBefore = .ok built) :
    List.Forall₂ (Keyed Document.Holds) (Document.mergeEntries entries before) built := by
  induction h generalizing before valuesBefore with
  | nil =>
    obtain rfl := Except.ok.inj hbuilt
    exact hbefore
  | cons first _ ih =>
    obtain ⟨h⟩ := first
    exact ih (putEntry_keyed hbefore h _) hbuilt

theorem mergeItems_forall₂ {items : List Document} {vs : List Value}
    (h : List.Forall₂ (fun D v => D.merge.Holds v) items vs) :
    List.Forall₂ Document.Holds (Document.mergeItems items) vs := by
  induction h with
  | nil => exact .nil
  | cons first _ ih => exact .cons first ih

theorem value_build_holds {D : Document} {depth : Nat} {v : Value}
    (h : Value.builder.build D depth = .ok v) : D.merge.Holds v := by
  induction D using Document.induction generalizing depth v with
  | number l =>
    obtain ⟨n, hn, ⟨⟩⟩ := Builder.build_number_ok.mp h
    exact .number hn
  | array items ih =>
    obtain ⟨below, rfl, vs, hvs, rfl⟩ := Builder.build_array_ok.mp h
    exact .array (mergeItems_forall₂ (forall₂_imp (fun item hitem _ => ih item hitem) hvs))
  | object entries ih =>
    obtain ⟨below, rfl, vs, hvs, built, hbuilt, rfl⟩ := Builder.build_object_ok.mp h
    -- The document and the value replace their entries alike.
    refine .object (mergeEntries_keyed (forall₂_imp ?_ hvs) .nil hbuilt)
    rintro _ hentry _ ⟨hv⟩
    exact .intro (ih _ hentry hv)
  | null | boolean | text =>
    cases h
    constructor

theorem value_foldlM_ok (vs before : List (String × Value)) :
    ∃ built, vs.foldlM Value.builder.enter before = .ok built := by
  induction vs generalizing before with
  | nil => exact ⟨before, rfl⟩
  | cons v vs ih => exact ih (putEntry v.1 v.2 before)

theorem value_build_array_exists {items : List Document} {depth : Nat} :
    (∃ v, Value.builder.build (.array items) depth = .ok v) ↔ ∃ below, depth = below + 1 ∧
      ∀ item ∈ items, ∃ v, Value.builder.build item below = .ok v := by
  constructor
  · rintro ⟨_, h⟩
    obtain ⟨below, rfl, vs, hvs, -⟩ := Builder.build_array_ok.mp h
    exact ⟨below, rfl, forall₂_exists.mp ⟨vs, hvs⟩⟩
  · rintro ⟨below, rfl, h⟩
    obtain ⟨vs, hvs⟩ := forall₂_exists.mpr h
    exact ⟨_, Builder.build_array_ok.mpr ⟨below, rfl, vs, hvs, rfl⟩⟩

theorem value_build_object_exists {entries : List (String × Document)} {depth : Nat} :
    (∃ v, Value.builder.build (.object entries) depth = .ok v) ↔ ∃ below, depth = below + 1 ∧
      ∀ entry ∈ entries, ∃ v, Value.builder.build entry.2 below = .ok v := by
  constructor
  · rintro ⟨_, h⟩
    obtain ⟨below, rfl, vs, hvs, -⟩ := Builder.build_object_ok.mp h
    exact ⟨below, rfl, Keyed.forall₂_exists.mp ⟨vs, hvs⟩⟩
  · rintro ⟨below, rfl, h⟩
    obtain ⟨vs, hvs⟩ : ∃ vs, List.Forall₂
        (Keyed fun D v => Value.builder.build D below = .ok v) entries vs :=
      Keyed.forall₂_exists.mpr h
    obtain ⟨built, hbuilt⟩ := value_foldlM_ok vs []
    exact ⟨_, Builder.build_object_ok.mpr ⟨below, rfl, vs, hvs, built, hbuilt, rfl⟩⟩

theorem value_build_exists {D : Document} {depth : Nat} :
    (∃ v, Value.builder.build D depth = .ok v) ↔
      D.NestsWithin depth ∧ D.Literals fun l => ∃ n, Number.ofLiteral? l = some n := by
  induction D using Document.induction generalizing depth with
  | number l =>
    rw [Document.literals_number, and_iff_right (.single rfl)]
    simp only [Builder.build_number_ok]
    constructor
    · rintro ⟨_, n, hn, -⟩
      exact ⟨n, hn⟩
    · rintro ⟨n, hn⟩
      exact ⟨_, n, hn, rfl⟩
  | array items ih =>
    have heach := fun below =>
      (forall₂_congr fun item hitem => @ih item hitem below).trans forall₂_and
    simp only [value_build_array_exists, heach, Document.nestsWithin_array,
      Document.literals_array, ← and_assoc, exists_and_right]
  | object entries ih =>
    have heach := fun below =>
      (forall₂_congr fun entry hentry => @ih entry hentry below).trans forall₂_and
    simp only [value_build_object_exists, heach, Document.nestsWithin_object,
      Document.literals_object, ← and_assoc, exists_and_right]
  | null | boolean | text => exact iff_of_true ⟨_, rfl⟩ ⟨.single rfl, by simp⟩

theorem mem_putEntry {α : Type} {key : String} {a : α} {entries : List (String × α)}
    {entry : String × α} (h : entry ∈ putEntry key a entries) : entry ∈ entries ∨ entry.2 = a := by
  induction entries with
  | nil =>
    obtain rfl := List.mem_singleton.mp h
    exact .inr rfl
  | cons first rest ih =>
    unfold putEntry at h
    split at h
    · rcases List.mem_cons.mp h with rfl | h
      · exact .inr rfl
      · exact .inl (List.mem_cons_of_mem _ h)
    · rcases List.mem_cons.mp h with rfl | h
      · exact .inl List.mem_cons_self
      · exact (ih h).imp_left (List.mem_cons_of_mem _)

section
variable {P : NumberLiteral → Prop}

theorem literals_mergeItems {items : List Document}
    (h : ∀ item ∈ items, item.merge.Literals P) :
    ∀ item ∈ Document.mergeItems items, item.Literals P := by
  induction items with
  | nil => exact nofun
  | cons D rest ih =>
    obtain ⟨hD, hrest⟩ := List.forall_mem_cons.mp h
    exact List.forall_mem_cons.mpr ⟨hD, ih hrest⟩

theorem literals_mergeEntries {entries before : List (String × Document)}
    (h : ∀ entry ∈ entries, entry.2.merge.Literals P)
    (hbefore : ∀ entry ∈ before, entry.2.Literals P) :
    ∀ entry ∈ Document.mergeEntries entries before, entry.2.Literals P := by
  induction entries generalizing before with
  | nil => exact hbefore
  | cons first rest ih =>
    obtain ⟨hfirst, hrest⟩ := List.forall_mem_cons.mp h
    refine ih hrest fun entry hentry => ?_
    rcases mem_putEntry hentry with hentry | heq
    · exact hbefore entry hentry
    · rw [heq]
      exact hfirst

/-- Merging leaves out numbers and brings in none. -/
theorem Document.Literals.merge {D : Document} (h : D.Literals P) : D.merge.Literals P := by
  induction D using Document.induction with
  | array items ih =>
    rw [literals_array] at h
    exact literals_array.mpr (literals_mergeItems fun item hitem => ih item hitem (h item hitem))
  | object entries ih =>
    rw [literals_object] at h
    exact literals_object.mpr
      (literals_mergeEntries (fun entry hentry => ih entry hentry (h entry hentry)) nofun)
  | _ => exact h

end

theorem toTrees_ok {vs : List Value} {ts : List Tree} :
    Value.toTrees vs = .ok ts ↔ List.Forall₂ (fun v t => v.toTree = .ok t) vs ts := by
  induction vs generalizing ts with
  | nil => simp [Value.toTrees, eq_comm]
  | cons v vs ih =>
    have hcons : Value.toTrees (v :: vs) =
        v.toTree.bind fun t => (Value.toTrees vs).map fun ts => t :: ts := by
      rw [Value.toTrees]
      cases v.toTree with
      | error e => rfl
      | ok t => cases Value.toTrees vs <;> rfl
    simp only [hcons, bind_ok, map_ok, ih, List.forall₂_cons_left_iff]
    constructor
    · rintro ⟨t, ht, ts, hts, rfl⟩
      exact ⟨t, ts, ht, hts, rfl⟩
    · rintro ⟨t, ts, ht, hts, rfl⟩
      exact ⟨t, ht, ts, hts, rfl⟩

theorem toEntries_ok {vs : List (String × Value)} {ts : Tree.Entries} :
    Value.toEntries vs = .ok ts ↔ List.Forall₂ (Keyed fun v t => v.toTree = .ok t) vs ts := by
  induction vs generalizing ts with
  | nil => simp [Value.toEntries, eq_comm]
  | cons entry vs ih =>
    obtain ⟨key, v⟩ := entry
    have hcons : Value.toEntries ((key, v) :: vs) =
        v.toTree.bind fun t => (Value.toEntries vs).map fun ts => (key, t) :: ts := by
      rw [Value.toEntries]
      cases v.toTree with
      | error e => rfl
      | ok t => cases Value.toEntries vs <;> rfl
    simp only [hcons, bind_ok, map_ok, ih, List.forall₂_cons_left_iff]
    constructor
    · rintro ⟨t, ht, ts, hts, rfl⟩
      exact ⟨(key, t), ts, .intro ht, hts, rfl⟩
    · rintro ⟨_, ts, ⟨ht⟩, hts, rfl⟩
      exact ⟨_, ht, ts, hts, rfl⟩

theorem toTree_array_ok {vs : List Value} {t : Tree} : (Value.array vs).toTree = .ok t ↔
    ∃ ts, t = .array ts ∧ List.Forall₂ (fun v t => v.toTree = .ok t) vs ts := by
  rw [Value.toTree]
  simp only [← toTrees_ok]
  cases Value.toTrees vs <;> simp [eq_comm]

theorem toTree_object_ok {vs : List (String × Value)} {t : Tree} :
    (Value.object vs).toTree = .ok t ↔
      ∃ ts, t = .map ts ∧ List.Forall₂ (Keyed fun v t => v.toTree = .ok t) vs ts := by
  rw [Value.toTree]
  simp only [← toEntries_ok]
  cases Value.toEntries vs <;> simp [eq_comm]

theorem Document.Holds.toTree_ok {D : Document} {v : Value} (h : D.Holds v) {t : Tree} :
    v.toTree = .ok t ↔ D.ReadsAs t := by
  induction D using Document.induction generalizing v t with
  | number l =>
    cases h with | @number _ n hn =>
    rw [readsAs_number, ← Number.toTree_ok, Value.toTree, mapError_ok]
    simp [hn]
  | array items ih =>
    cases h with | array h =>
    rw [readsAs_array, toTree_array_ok]
    refine exists_congr fun ts => and_congr_right fun _ => ?_
    refine forall₂_congr_left h fun item hitem v hv t => ?_
    exact ih item hitem hv
  | object entries ih =>
    cases h with | object h =>
    rw [readsAs_object, toTree_object_ok]
    refine exists_congr fun ts => and_congr_right fun _ => ?_
    refine forall₂_congr_left h fun entry hentry v hv t => ?_
    rw [Keyed.iff] at hv
    rw [Keyed.iff, Keyed.iff, hv.1, ih entry hentry hv.2]
  | null | boolean | text =>
    cases h
    constructor
    · rintro ⟨⟩
      constructor
    · rintro ⟨⟩
      rfl

-- ---------------------------------------------------------------------------
-- Texts
-- ---------------------------------------------------------------------------

section
variable {text : String} {D : Document} {t : Tree}

theorem ofJson_ok (h : Spells D text.toList) : Tree.ofJson text = .ok t ↔
    (D.NestsWithin maxDepth ∧ D.Distinct) ∧ D.ReadsAs t := by
  rw [Tree.ofJson, read_spells _ h, treeBuilder_build_ok]

theorem read_toTree_ok (h : Spells D text.toList) :
    (∃ v, Value.read text = .ok v ∧ v.toTree = .ok t) ↔
      (D.NestsWithin maxDepth ∧ D.Literals fun l => ∃ n, Number.ofLiteral? l = some n) ∧
        D.merge.ReadsAs t := by
  rw [Value.read, read_spells _ h, ← value_build_exists]
  constructor
  · rintro ⟨v, hv, ht⟩
    exact ⟨⟨v, hv⟩, (value_build_holds hv).toTree_ok.mp ht⟩
  · rintro ⟨⟨v, hv⟩, ht⟩
    exact ⟨v, hv, (value_build_holds hv).toTree_ok.mpr ht⟩

end

end SolverConfig.Json
