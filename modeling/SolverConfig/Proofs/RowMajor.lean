import Mathlib.Data.List.OfFn
import Mathlib.Data.List.ProdSigma
import SolverConfig.Proofs.Matrices

/-!
# Row-major order

The values of a matrix stand row after row. A matrix of rows gives each value back in the row and
the column where it stood, and the places of a matrix, read row after row, give back the list of
values that it was made of.
-/

namespace SolverConfig

namespace Dense

/-- Rows that lie in memory: how many there are, how long each of them is and how many bytes they
take together are words. Each value takes `size` bytes, of which there is at least one. -/
structure Stored {α : Type} {n : Nat} (size : Nat) (rows : List (Vector α n)) : Prop where
  height : rows.length < UInt64.size
  width : n < UInt64.size
  size_pos : 0 < size
  bytes : rows.length * (n * size) < UInt64.size

def below (bound : UInt64) : List UInt64 := .ofFn fun k : Fin bound.toNat => .ofNat k

/-- The places of a matrix, row after row and each row from its first column on. -/
def places (rows cols : UInt64) : List (UInt64 × UInt64) := below rows ×ˢ below cols

-- ---------------------------------------------------------------------------
-- Places in order
-- ---------------------------------------------------------------------------

section
variable {bound rows cols : UInt64}

theorem toNat_ofNat_of_below (k : Fin bound.toNat) : (UInt64.ofNat k).toNat = k :=
  UInt64.toNat_ofNat_of_lt' (Nat.lt_trans k.isLt bound.toNat_lt)

theorem ofNat_lt_of_below (k : Fin bound.toNat) : UInt64.ofNat k < bound := by
  rw [UInt64.lt_iff_toNat_lt, toNat_ofNat_of_below]
  exact k.isLt

theorem mem_below {w : UInt64} : w ∈ below bound ↔ w < bound := by
  rw [below, List.mem_ofFn]
  constructor
  · rintro ⟨k, rfl⟩
    exact ofNat_lt_of_below k
  · intro h
    exact ⟨⟨w.toNat, UInt64.lt_iff_toNat_lt.mp h⟩, UInt64.ofNat_toNat⟩

theorem pairwise_below : (below bound).Pairwise (· < ·) := by
  refine List.pairwise_ofFn.mpr fun i j hij => ?_
  rw [UInt64.lt_iff_toNat_lt, toNat_ofNat_of_below, toNat_ofNat_of_below]
  exact hij

theorem mem_places {p : UInt64 × UInt64} : p ∈ places rows cols ↔ p.1 < rows ∧ p.2 < cols :=
  List.mem_product.trans (and_congr mem_below mem_below)

theorem pairwise_places : (places rows cols).Pairwise (Prod.Lex (· < ·) (· < ·)) := by
  refine List.pairwise_flatMap.mpr ⟨fun r _ => ?_, pairwise_below.imp fun hlt p hp q hq => ?_⟩
  · exact List.pairwise_map.mpr (pairwise_below.imp (Prod.Lex.right r))
  · obtain ⟨c, -, rfl⟩ := List.mem_map.mp hp
    obtain ⟨d, -, rfl⟩ := List.mem_map.mp hq
    exact .left c d hlt

theorem map_places {β : Type} (f : UInt64 × UInt64 → β) : (places rows cols).map f =
    (List.ofFn fun r : Fin rows.toNat =>
      List.ofFn fun c : Fin cols.toNat => f (.ofNat r, .ofNat c)).flatten := by
  change ((below rows).flatMap fun r => (below cols).map (Prod.mk r)).map f = _
  simp only [below, List.flatMap_def, List.map_flatten, List.map_ofFn, Function.comp_def]

end

-- ---------------------------------------------------------------------------
-- Reading a place
-- ---------------------------------------------------------------------------

section
variable {α : Type} {n size : Nat} {rows : List (Vector α n)} {m : Dense α} {r c : UInt64}

theorem at?_of_fits (hfits : Fits m.rows m.cols) (hr : r < m.rows) (hc : c < m.cols) :
    m.at? r c = m.values[r.toNat * m.cols.toNat + c.toNat]? := by
  rw [at?, if_pos ⟨hr, hc⟩, (index_of_fits hfits hr hc).1]

theorem row_of_fits {rows cols : UInt64} (hfits : Fits rows cols) (hr : r < rows) :
    (r * cols).toNat = r.toNat * cols.toNat := by
  have hle : r.toNat * cols.toNat ≤ rows.toNat * cols.toNat :=
    Nat.mul_le_mul_right _ (Nat.le_of_lt (UInt64.lt_iff_toNat_lt.mp hr))
  rw [UInt64.toNat_mul, Nat.mod_eq_of_lt (Nat.lt_of_le_of_lt hle hfits)]

theorem Stored.toNat_rows (h : Stored size rows) : (ofRows rows).rows.toNat = rows.length :=
  UInt64.toNat_ofNat_of_lt' h.height

theorem Stored.toNat_cols (h : Stored size rows) : (ofRows rows).cols.toNat = n :=
  UInt64.toNat_ofNat_of_lt' h.width

theorem Stored.fits (h : Stored size rows) : Fits (ofRows rows).rows (ofRows rows).cols := by
  rw [Fits, h.toNat_rows, h.toNat_cols]
  calc rows.length * n
    _ ≤ rows.length * (n * size) := Nat.mul_le_mul_left _ (Nat.le_mul_of_pos_right n h.size_pos)
    _ < UInt64.size := h.bytes

theorem getElem?_flatMap_toList (rows : List (Vector α n)) (r : Nat) {c : Nat} (hc : c < n) :
    (rows.flatMap Vector.toList)[r * n + c]? = rows[r]?.map fun row => row[c] := by
  -- The first row stands in front, so a value of another is one row further in than without it.
  induction rows generalizing r with
  | nil => rfl
  | cons row rows ih =>
    rw [List.flatMap_cons]
    cases r with
    | zero =>
      have hfront : c < row.toList.length := by
        rw [Vector.length_toList]
        exact hc
      rw [Nat.zero_mul, Nat.zero_add, List.getElem?_append_left hfront, Vector.getElem?_toList,
        Vector.getElem?_eq_getElem hc, List.getElem?_cons_zero, Option.map_some]
    | succ r =>
      have hindex : (r + 1) * n + c = row.toList.length + (r * n + c) := by
        rw [Vector.length_toList, Nat.succ_mul]
        omega
      rw [hindex, List.getElem?_append_right (Nat.le_add_right ..), Nat.add_sub_cancel_left, ih r,
        List.getElem?_cons_succ]

theorem Stored.lt_rows_iff (h : Stored size rows) :
    r < (ofRows rows).rows ↔ r.toNat < rows.length := by
  rw [UInt64.lt_iff_toNat_lt, h.toNat_rows]

theorem Stored.lt_cols_iff (h : Stored size rows) : c < (ofRows rows).cols ↔ c.toNat < n := by
  rw [UInt64.lt_iff_toNat_lt, h.toNat_cols]

theorem Stored.at?_eq_some (h : Stored size rows) (hr : r.toNat < rows.length)
    (hc : c.toNat < n) : (ofRows rows).at? r c = some rows[r.toNat][c.toNat] := by
  rw [at?_of_fits h.fits (h.lt_rows_iff.mpr hr) (h.lt_cols_iff.mpr hc), h.toNat_cols]
  change (rows.flatMap Vector.toList)[r.toNat * n + c.toNat]? = _
  rw [getElem?_flatMap_toList rows r.toNat hc, List.getElem?_eq_getElem hr, Option.map_some]

theorem Stored.at?_eq_none (h : Stored size rows) (hout : ¬(r.toNat < rows.length ∧ c.toNat < n)) :
    (ofRows rows).at? r c = none :=
  if_neg fun hin => hout ⟨h.lt_rows_iff.mp hin.1, h.lt_cols_iff.mp hin.2⟩

end

-- ---------------------------------------------------------------------------
-- Reading all places
-- ---------------------------------------------------------------------------

theorem map_at?_places {α : Type} {rows cols : UInt64} {values : List α}
    (hlength : values.length = rows.toNat * cols.toNat) (hfits : Fits rows cols) :
    (places rows cols).map (fun p => (Dense.mk rows cols values).at? p.1 p.2) =
      values.map some := by
  have hread (r : Fin rows.toNat) (c : Fin cols.toNat) :
      (Dense.mk rows cols values).at? (.ofNat r) (.ofNat c) =
        values[r.val * cols.toNat + c.val]? := by
    rw [at?_of_fits hfits (ofNat_lt_of_below r) (ofNat_lt_of_below c), toNat_ofNat_of_below,
      toNat_ofNat_of_below]
  have hvalue (k : Fin values.length) : values[k.val]? = some values[k.val] :=
    List.getElem?_eq_getElem k.isLt
  rw [map_places]
  simp only [hread]
  calc (List.ofFn fun r : Fin rows.toNat => List.ofFn fun c : Fin cols.toNat =>
        values[r.val * cols.toNat + c.val]?).flatten
    _ = .ofFn fun k : Fin (rows.toNat * cols.toNat) => values[k.val]? :=
      (List.ofFn_mul fun k : Fin (rows.toNat * cols.toNat) => values[k.val]?).symm
    _ = .ofFn fun k : Fin values.length => values[k.val]? := by rw [hlength]
    _ = .ofFn fun k : Fin values.length => some values[k.val] := by simp only [hvalue]
    _ = (List.ofFn fun k : Fin values.length => values[k.val]).map some :=
      (List.map_ofFn ..).symm
    _ = values.map some := by rw [List.ofFn_getElem]

/-- A matrix of rows has in each of its places the value that stood there, and none elsewhere, and
no step to the index of a place overflows. A list of as many values as there are places becomes a
matrix, and its places, each of them once and row after row, give that list. -/
theorem row_major {α : Type} :
    (∀ {n size : Nat} (rows : List (Vector α n)), Stored size rows → ∀ r c : UInt64,
      (∀ (hr : r.toNat < rows.length) (hc : c.toNat < n),
        (ofRows rows).at? r c = some rows[r.toNat][c.toNat] ∧
        (r * (ofRows rows).cols).toNat = r.toNat * n ∧
        (r * (ofRows rows).cols + c).toNat = r.toNat * n + c.toNat) ∧
      (¬(r.toNat < rows.length ∧ c.toNat < n) → (ofRows rows).at? r c = none)) ∧
    ∀ (rows cols : UInt64) (values : List α), values.length = rows.toNat * cols.toNat →
      rows.toNat * cols.toNat < UInt64.size →
      (∀ p, p ∈ places rows cols ↔ p.1 < rows ∧ p.2 < cols) ∧
      (places rows cols).Pairwise (Prod.Lex (· < ·) (· < ·)) ∧
      ∃ m, ofValues rows cols values = .ok m ∧
        (places rows cols).map (fun p => m.at? p.1 p.2) = values.map some := by
  constructor
  · intro n size rows h r c
    refine ⟨fun hr hc => ⟨h.at?_eq_some hr hc, ?_, ?_⟩, h.at?_eq_none⟩
    · rw [row_of_fits h.fits (h.lt_rows_iff.mpr hr), h.toNat_cols]
    · rw [(index_of_fits h.fits (h.lt_rows_iff.mpr hr) (h.lt_cols_iff.mpr hc)).1, h.toNat_cols]
  · intro rows cols values hlength hfits
    have hplaces : values.length = rows.toNat * cols.toNat % UInt64.size :=
      hlength.trans (Nat.mod_eq_of_lt hfits).symm
    exact ⟨fun _ => mem_places, pairwise_places, ⟨rows, cols, values⟩,
      ofValues_ok.mpr ⟨hplaces, rfl⟩, map_at?_places hlength hfits⟩

theorem row_major_three_rows :
    let rows : List (Vector UInt64 2) := [#v[1, 2], #v[3, 4], #v[5, 6]]
    Stored 8 rows ∧ (ofRows rows).at? 2 0 = some 5 ∧ (ofRows rows).at? 0 2 = none ∧
      ∃ m, ofValues 3 2 [1, 2, 3, 4, 5, 6] = .ok m ∧
        (places 3 2).map (fun p => m.at? p.1 p.2) = [1, 2, 3, 4, 5, 6].map some := by
  intro rows
  have h : Stored 8 rows := ⟨by decide, by decide, by decide, by decide⟩
  exact ⟨h, ((row_major.1 rows h 2 0).1 (by decide) (by decide)).1,
    (row_major.1 rows h 0 2).2 (by decide),
    (row_major.2 3 2 [1, 2, 3, 4, 5, 6] (by decide) (by decide)).2.2⟩

end Dense

end SolverConfig
