import Mathlib.Data.Nat.Basic
import SolverConfig.Operator

/-!
# Matrices of words

The number of values in a matrix is the product of its rows and columns as words. As long as that is
their product as numbers, a matrix has a value in each of its places and nowhere else. Beyond that
some place of it is always empty.
-/

namespace SolverConfig

namespace Dense

def Fits (rows cols : UInt64) : Prop := rows.toNat * cols.toNat < UInt64.size

/-- The matrices that there are: of given values, of one value everywhere, and of rows that fit into
the memory of a machine. -/
inductive Made {α : Type} : Dense α → Prop
  | values {rows cols : UInt64} {values : List α} {m : Dense α}
      (h : ofValues rows cols values = .ok m) : Made m
  | constant (rows cols : UInt64) (value : α) : Made (constant rows cols value)
  | rows {n : Nat} (rows : List (Vector α n)) (height : rows.length < UInt64.size)
      (width : n < UInt64.size) (places : rows.length * n < UInt64.size) : Made (ofRows rows)

-- ---------------------------------------------------------------------------
-- The number of values
-- ---------------------------------------------------------------------------

section
variable {α : Type} {rows cols : UInt64} {values : List α} {m : Dense α}

theorem ofValues_eq : ofValues rows cols values =
    if values.length = rows.toNat * cols.toNat % UInt64.size then .ok ⟨rows, cols, values⟩
    else .error ⟨rows, cols, values.length⟩ := by
  rw [ofValues, UInt64.toNat_mul]

theorem ofValues_ok : ofValues rows cols values = .ok m ↔
    values.length = rows.toNat * cols.toNat % UInt64.size ∧ m = ⟨rows, cols, values⟩ := by
  rw [ofValues_eq]
  split
  case isTrue h => exact ⟨fun he => ⟨h, (Except.ok.inj he).symm⟩, fun hm => congrArg _ hm.2.symm⟩
  case isFalse h => exact ⟨nofun, fun hm => absurd hm.1 h⟩

theorem Made.length (h : m.Made) :
    m.values.length = m.rows.toNat * m.cols.toNat % UInt64.size := by
  cases h with
  | values h =>
    obtain ⟨hlength, rfl⟩ := ofValues_ok.mp h
    exact hlength
  | constant rows cols value => exact (List.length_replicate).trans (UInt64.toNat_mul rows cols)
  | @rows n rows height width places =>
    have hsizes : (UInt64.ofNat rows.length).toNat * (UInt64.ofNat n).toNat = rows.length * n := by
      rw [UInt64.toNat_ofNat_of_lt' height, UInt64.toNat_ofNat_of_lt' width]
    change (rows.flatMap Vector.toList).length = _ % UInt64.size
    rw [ofRows, hsizes, Nat.mod_eq_of_lt places, List.length_flatMap]
    simp only [Vector.length_toList, List.map_const', List.sum_replicate_nat]

-- ---------------------------------------------------------------------------
-- Places
-- ---------------------------------------------------------------------------

theorem at?_isSome_iff {r c : UInt64} : (m.at? r c).isSome = true ↔
    (r < m.rows ∧ c < m.cols) ∧ (r * m.cols + c).toNat < m.values.length := by
  unfold at?
  split
  case isTrue h => simp [h]
  case isFalse h => simp [h]

/-- The index of a place is computed without overflow, and is below the number of places. -/
theorem index_of_fits {r c : UInt64} (h : Fits rows cols) (hr : r < rows) (hc : c < cols) :
    (r * cols + c).toNat = r.toNat * cols.toNat + c.toNat ∧
      r.toNat * cols.toNat + c.toNat < rows.toNat * cols.toNat := by
  rw [UInt64.lt_iff_toNat_lt] at hr hc
  have hlast : r.toNat * cols.toNat + c.toNat < rows.toNat * cols.toNat := by
    calc r.toNat * cols.toNat + c.toNat
      _ < r.toNat * cols.toNat + cols.toNat := by omega
      _ = (r.toNat + 1) * cols.toNat := (Nat.succ_mul _ _).symm
      _ ≤ rows.toNat * cols.toNat := Nat.mul_le_mul_right _ hr
  have hword : r.toNat * cols.toNat + c.toNat < UInt64.size := Nat.lt_trans hlast h
  refine ⟨?_, hlast⟩
  rw [UInt64.toNat_add, UInt64.toNat_mul, Nat.mod_add_mod, Nat.mod_eq_of_lt hword]

theorem at?_isSome_of_fits (h : m.Made) (hfits : Fits m.rows m.cols) {r c : UInt64}
    (hr : r < m.rows) (hc : c < m.cols) : (m.at? r c).isSome = true := by
  obtain ⟨hindex, hlast⟩ := index_of_fits hfits hr hc
  refine at?_isSome_iff.mpr ⟨⟨hr, hc⟩, ?_⟩
  rw [hindex, h.length, Nat.mod_eq_of_lt hfits]
  exact hlast

theorem empty_place_of_not_fits (h : m.Made) (hfits : ¬Fits m.rows m.cols) :
    ∃ r c, r < m.rows ∧ c < m.cols ∧ m.at? r c = none := by
  have hlength : m.values.length < UInt64.size := by
    rw [h.length]
    exact Nat.mod_lt _ (Nat.two_pow_pos 64)
  have hplaces : m.values.length < m.rows.toNat * m.cols.toNat :=
    Nat.lt_of_lt_of_le hlength (Nat.not_lt.mp hfits)
  have hcols : 0 < m.cols.toNat := Nat.pos_of_mul_pos_left (Nat.zero_lt_of_lt hplaces)
  have hrow : m.values.length / m.cols.toNat < m.rows.toNat :=
    (Nat.div_lt_iff_lt_mul hcols).mpr hplaces
  have hcol : m.values.length % m.cols.toNat < m.cols.toNat := Nat.mod_lt _ hcols
  have hr := UInt64.toNat_ofNat_of_lt' (Nat.lt_trans hrow m.rows.toNat_lt)
  have hc := UInt64.toNat_ofNat_of_lt' (Nat.lt_trans hcol m.cols.toNat_lt)
  refine ⟨.ofNat (m.values.length / m.cols.toNat), .ofNat (m.values.length % m.cols.toNat),
    ?_, ?_, ?_⟩
  · rw [UInt64.lt_iff_toNat_lt, hr]
    exact hrow
  · rw [UInt64.lt_iff_toNat_lt, hc]
    exact hcol
  · rw [← Option.not_isSome_iff_eq_none, at?_isSome_iff, UInt64.toNat_add, UInt64.toNat_mul,
      Nat.mod_add_mod, hr, hc, Nat.div_add_mod', Nat.mod_eq_of_lt hlength]
    exact fun hsome => Nat.lt_irrefl _ hsome.2

end

/-- A list of values is taken exactly if its length is the product of the sizes as words, and is a
mismatch otherwise. That this is their product as numbers, and that a matrix has values in its
places and nowhere else, holds exactly for sizes whose product is a word. -/
theorem filled_iff_fits {α : Type} (value : α) :
    (∀ (rows cols : UInt64) (values : List α), ofValues rows cols values =
      if values.length = rows.toNat * cols.toNat % UInt64.size then .ok ⟨rows, cols, values⟩
      else .error ⟨rows, cols, values.length⟩) ∧
    (∀ rows cols : UInt64,
      (∀ values : List α, ofValues rows cols values =
        if values.length = rows.toNat * cols.toNat then .ok ⟨rows, cols, values⟩
        else .error ⟨rows, cols, values.length⟩) ↔ rows.toNat * cols.toNat < UInt64.size) ∧
    ∀ m : Dense α, m.Made →
      ((∀ r c, (m.at? r c).isSome = true ↔ r < m.rows ∧ c < m.cols) ↔
        m.rows.toNat * m.cols.toNat < UInt64.size) := by
  refine ⟨fun rows cols values => ofValues_eq, fun rows cols => ⟨fun h => ?_, fun h values => ?_⟩,
    fun m hm => ⟨fun h => ?_, fun h r c => ⟨fun hs => (at?_isSome_iff.mp hs).1, fun hs => ?_⟩⟩⟩
  · -- As many values as the product as words are taken, so these are the product as numbers.
    have hreplicate := h (.replicate (rows.toNat * cols.toNat % UInt64.size) value)
    rw [ofValues_eq, List.length_replicate, if_pos rfl] at hreplicate
    split at hreplicate
    case isTrue hsame =>
      rw [← hsame]
      exact Nat.mod_lt _ (Nat.two_pow_pos 64)
    case isFalse => cases hreplicate
  · rw [ofValues_eq, Nat.mod_eq_of_lt h]
  · by_contra hfits
    obtain ⟨r, c, hr, hc, hnone⟩ := empty_place_of_not_fits hm hfits
    have hsome := (h r c).mpr ⟨hr, hc⟩
    rw [hnone] at hsome
    cases hsome
  · exact at?_isSome_of_fits hm h hs.1 hs.2

theorem filled_iff_fits_three_rows :
    let m : Dense Bool := ofRows [#v[true, false], #v[false, false], #v[false, true]]
    m.Made ∧ ∀ r c, (m.at? r c).isSome = true ↔ r < 3 ∧ c < 2 := by
  intro m
  have hm : m.Made := .rows _ (by decide) (by decide) (by decide)
  exact ⟨hm, ((filled_iff_fits true).2.2 m hm).mpr (by decide)⟩

/-- A square of 2³² rows is taken without any value, and so has none in its first place. -/
theorem square_without_values :
    let m : Dense Bool := ⟨4294967296, 4294967296, []⟩
    ofValues 4294967296 4294967296 [] = .ok m ∧
      m.values.length ≠ m.rows.toNat * m.cols.toNat ∧
      0 < m.rows ∧ 0 < m.cols ∧ m.at? 0 0 = none := by decide

end Dense

end SolverConfig
