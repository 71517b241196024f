import Mathlib.Data.List.Forall2
import SolverConfig.Shape

/-!
# Trees by their form

What holds of every leaf, of an array if it holds of its items, and of a map if it holds of the
trees in its entries, holds of every tree. A shape reads no more of a tree than its form.
-/

namespace SolverConfig

namespace Tree

theorem exists_of_isMap {t : Tree} (h : t.isMap = true) : ∃ entries, t = .map entries := by
  cases t with
  | map entries => exact ⟨entries, rfl⟩
  | _ => cases h

theorem exists_of_isArray {t : Tree} (h : t.isArray = true) : ∃ items, t = .array items := by
  cases t with
  | array items => exact ⟨items, rfl⟩
  | _ => cases h

theorem isArray_of_isMap {t : Tree} (h : t.isMap = true) : t.isArray = false := by
  obtain ⟨entries, rfl⟩ := exists_of_isMap h
  rfl

@[elab_as_elim]
theorem induction {motive : Tree → Prop}
    (leaf : ∀ t, t.isArray = false → t.isMap = false → motive t)
    (array : ∀ items, (∀ item ∈ items, motive item) → motive (.array items))
    (map : ∀ entries, (∀ entry ∈ entries, motive entry.2) → motive (.map entries)) (t : Tree) :
    motive t := by
  refine @Tree.rec motive (fun items => ∀ item ∈ items, motive item)
    (fun entries => ∀ entry ∈ entries, motive entry.2) (fun entry => motive entry.2)
    (leaf _ rfl rfl) (fun _ => leaf _ rfl rfl) (fun _ => leaf _ rfl rfl) (fun _ => leaf _ rfl rfl)
    (fun _ => leaf _ rfl rfl) array map (by simp) ?_ (by simp) ?_ (fun _ _ h => h) t
  · exact fun item rest hitem hrest => List.forall_mem_cons.mpr ⟨hitem, hrest⟩
  · exact fun entry rest hentry hrest => List.forall_mem_cons.mpr ⟨hentry, hrest⟩

end Tree

namespace Shape

variable {t u : Tree}

theorem isArray_of_isObject (h : isObject t = true) : t.isArray = false := by
  cases t with
  | array items => cases h
  | _ => rfl

theorem isArrayOf_congr {p : Tree → Bool} {items others : List Tree}
    (h : List.Forall₂ (fun t u => p t = p u) items others) :
    isArrayOf p (.array items) = isArrayOf p (.array others) := by
  change items.all p = others.all p
  induction h with
  | nil => rfl
  | cons hitem _ ih => rw [List.all_cons, List.all_cons, hitem, ih]

theorem accepts_congr (hleaf : t.isLeaf = u.isLeaf) (hobject : isObject t = isObject u)
    (htext : t.asText? = u.asText?)
    (hleaves : isArrayOf Tree.isLeaf t = isArrayOf Tree.isLeaf u)
    (hobjects : isArrayOf isObject t = isArrayOf isObject u) (s : Shape) :
    s.accepts t = s.accepts u := by
  cases s <;> simp only [accepts, hleaf, hobject, htext, hleaves, hobjects]

end Shape

end SolverConfig
