import SolverConfig.Proofs.Idempotence
import SolverConfig.Tree.Equality

/-!
# Trees that are alike

Equal trees may hold the entries of a map in another order, and zeros of another sign. As long as no
map has a key twice, such trees cannot be told apart by looking keys up.
-/

namespace SolverConfig

namespace Tree

inductive Distinct : Tree → Prop
  | leaf {t : Tree} (notArray : t.isArray = false) (notMap : t.isMap = false) : Distinct t
  | array {items : List Tree} (each : ∀ item ∈ items, Distinct item) : Distinct (.array items)
  | map {entries : Entries} (keys : (entries.map Prod.fst).Nodup)
      (each : ∀ entry ∈ entries, Distinct entry.2) : Distinct (.map entries)

inductive Reordered : Tree → Tree → Prop
  | leaf {t : Tree} (notArray : t.isArray = false) (notMap : t.isMap = false) : Reordered t t
  | array {items others : List Tree} (each : List.Forall₂ Reordered items others) :
      Reordered (.array items) (.array others)
  | map {entries middle others : Entries} (keys : entries.map Prod.fst = middle.map Prod.fst)
      (each : List.Forall₂ Reordered (entries.map Prod.snd) (middle.map Prod.snd))
      (order : middle.Perm others) : Reordered (.map entries) (.map others)

/-- Equal trees without repeated keys. If `exact`, only map entries are reordered. -/
structure Alike (exact : Prop) (t u : Tree) : Prop where
  same : t.same u = true
  reordered : exact → t.Reordered u
  left : t.Distinct
  right : u.Distinct

inductive Match (exact : Prop) : Tree → Tree → Prop
  | leaf {t : Tree} (notArray : t.isArray = false) (notMap : t.isMap = false)
      (number : ¬t.HoldsNaN) : Match exact t t
  | zeros {x y : Double} (left : x.isZero = true) (right : y.isZero = true) (inexact : ¬exact) :
      Match exact (.real x) (.real y)
  | array {items others : List Tree} (each : List.Forall₂ (Alike exact) items others) :
      Match exact (.array items) (.array others)
  | map {entries others : Entries}
      (each : ∀ key, Option.Rel (Alike exact) (entries.lookup key) (others.lookup key)) :
      Match exact (.map entries) (.map others)

end Tree

-- ---------------------------------------------------------------------------
-- Parts of trees that are alike
-- ---------------------------------------------------------------------------

namespace Tree

theorem distinct_array {items : List Tree} :
    (Tree.array items).Distinct ↔ ∀ item ∈ items, item.Distinct := by
  constructor
  · rintro (⟨h, -⟩ | h | _)
    · cases h
    · exact h
  · exact .array

theorem distinct_map {entries : Entries} : (Tree.map entries).Distinct ↔
    (entries.map Prod.fst).Nodup ∧ ∀ entry ∈ entries, entry.2.Distinct := by
  constructor
  · rintro (⟨-, h⟩ | _ | ⟨hk, h⟩)
    · cases h
    · exact ⟨hk, h⟩
  · rintro ⟨hk, h⟩
    exact .map hk h

theorem sameItems_iff {items others : List Tree} :
    sameItems items others = true ↔ List.Forall₂ (fun t u => t.same u = true) items others := by
  induction items generalizing others with
  | nil => cases others <;> simp [sameItems]
  | cons t rest ih => cases others <;> simp [sameItems, ih]

theorem sameEntries_iff {entries others : Entries} : sameEntries entries others = true ↔
    ∀ entry ∈ entries, ∃ u, others.lookup entry.1 = some u ∧ entry.2.same u = true := by
  induction entries with
  | nil => simp [sameEntries]
  | cons entry rest ih =>
    obtain ⟨key, t⟩ := entry
    rw [List.forall_mem_cons, ← ih, sameEntries, Bool.and_eq_true]
    cases others.lookup key <;> simp

theorem same_map {entries others : Entries} : (Tree.map entries).same (.map others) = true ↔
    entries.length = others.length ∧
      ∀ entry ∈ entries, ∃ u, others.lookup entry.1 = some u ∧ entry.2.same u = true := by
  rw [Tree.same, Bool.and_eq_true, beq_iff_eq, sameEntries_iff]

variable {exact : Prop} {items others : List Tree}

theorem alike_items (hs : List.Forall₂ (fun t u => t.same u = true) items others)
    (hr : exact → List.Forall₂ Reordered items others) (hl : ∀ t ∈ items, t.Distinct)
    (hd : ∀ u ∈ others, u.Distinct) : List.Forall₂ (Alike exact) items others := by
  induction hs with
  | nil => exact .nil
  | cons h _ ih =>
    rw [List.forall_mem_cons] at hl hd
    refine .cons ⟨h, fun he => ?_, hl.1, hd.1⟩ (ih (fun he => ?_) hl.2 hd.2)
    · exact (List.forall₂_cons.mp (hr he)).1
    · exact (List.forall₂_cons.mp (hr he)).2

theorem keys_perm_of_same {entries others : Entries} (hn : (entries.map Prod.fst).Nodup)
    (hs : (Tree.map entries).same (.map others) = true) :
    (entries.map Prod.fst).Perm (others.map Prod.fst) := by
  obtain ⟨hlength, hall⟩ := same_map.mp hs
  have hsub : entries.map Prod.fst ⊆ others.map Prod.fst := by
    intro key hk
    obtain ⟨entry, he, rfl⟩ := List.mem_map.mp hk
    obtain ⟨u, hu, -⟩ := hall entry he
    exact List.mem_map.mpr ⟨_, mem_of_lookup hu, rfl⟩
  exact (hn.subperm hsub).perm_of_length_le (by simp [hlength])

theorem Alike.lookup {entries others : Entries} (h : (Tree.map entries).Alike exact (.map others))
    (key : String) : Option.Rel (Alike exact) (entries.lookup key) (others.lookup key) := by
  have hl := distinct_map.mp h.left
  have hd := distinct_map.mp h.right
  have hkeys := keys_perm_of_same hl.1 h.same
  cases ht : entries.lookup key with
  | none =>
    rw [lookup_eq_none_iff, hkeys.mem_iff, ← lookup_eq_none_iff] at ht
    rw [ht]
    exact .none
  | some t =>
    obtain ⟨u, hu, hsame⟩ := (same_map.mp h.same).2 _ (mem_of_lookup ht)
    rw [hu]
    refine .some ⟨hsame, fun he => ?_, hl.2 _ (mem_of_lookup ht), hd.2 _ (mem_of_lookup hu)⟩
    cases h.reordered he with
    | leaf _ hm => cases hm
    | map hk heach horder =>
      have hrel := lookup_forall₂ hk heach key
      rw [lookup_perm ((horder.map Prod.fst).nodup_iff.mpr hd.1) horder, ht, hu] at hrel
      cases hrel with
      | some h => exact h

theorem alike_real {x y : Double} (h : (Tree.real x).Alike exact (.real y)) :
    Match exact (.real x) (.real y) := by
  have hs : x.same y = true := h.same
  simp only [Binary.same, Bool.and_eq_true, Bool.or_eq_true, Bool.not_eq_true', beq_iff_eq] at hs
  obtain ⟨⟨hx, -⟩, rfl | ⟨hzx, hzy⟩⟩ := hs
  · exact .leaf rfl rfl (by simp [hx])
  · by_cases he : exact
    · cases h.reordered he
      exact .leaf rfl rfl (by simp [hx])
    · exact .zeros hzx hzy he

theorem Alike.parts {t u : Tree} (h : t.Alike exact u) : Match exact t u := by
  have hs := h.same
  -- Trees of different forms are not equal.
  cases t with
  | empty =>
    cases u with
    | empty => exact .leaf rfl rfl nofun
    | _ => cases hs
  | boolean b =>
    cases u with
    | boolean b' =>
      obtain rfl : b = b' := beq_iff_eq.mp hs
      exact .leaf rfl rfl nofun
    | _ => cases hs
  | integer n =>
    cases u with
    | integer n' =>
      obtain rfl : n = n' := beq_iff_eq.mp hs
      exact .leaf rfl rfl nofun
    | _ => cases hs
  | text s =>
    cases u with
    | text s' =>
      obtain rfl : s = s' := beq_iff_eq.mp hs
      exact .leaf rfl rfl nofun
    | _ => cases hs
  | real x =>
    cases u with
    | real y => exact alike_real h
    | _ => cases hs
  | array items =>
    cases u with
    | array others =>
      refine .array (alike_items (sameItems_iff.mp hs) (fun he => ?_) (distinct_array.mp h.left)
        (distinct_array.mp h.right))
      cases h.reordered he with
      | leaf ha _ => cases ha
      | array h => exact h
    | _ => cases hs
  | map entries =>
    cases u with
    | map others => exact .map h.lookup
    | _ => cases hs

end Tree

end SolverConfig
