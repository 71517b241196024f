import SolverConfig.Proofs.Rounding
import SolverConfig.Tree.Convert

/-!
# Rounding twice

An integer becomes a number of single precision by way of the double nearest to it. The second
rounding may meet a tie that the first one has made, and is then blind to the side of it that the
integer is on. That is the only way in which the result can miss the number nearest to the integer.
-/

namespace SolverConfig

/-- The midpoints of the numbers of `F` are numbers of `G`. -/
structure BinaryFormat.Finer (G F : BinaryFormat) : Prop where
  precision : F.precision < G.precision
  unitBits : F.unitBits < G.unitBits
  exponents : 2 ^ F.exponentBits + (G.unitBits - F.unitBits) < 2 ^ G.exponentBits

namespace Binary

variable {F G : BinaryFormat}

-- ---------------------------------------------------------------------------
-- Consecutive numbers
-- ---------------------------------------------------------------------------

section
variable {x y : Binary F}

theorem units_succ (h : y.magnitude = x.magnitude + 1) : y.units = x.units + 2 ^ x.exponent := by
  obtain ⟨hx, hlt, hle⟩ := exists_parts x
  rw [units_of_parts (e := x.exponent) (r := x.significand + 1) (by omega) (by omega)
    (hle.imp_right fun h => by omega), units, Nat.pow_eq, Nat.succ_mul]

structure Consecutive (x y : Binary F) : Prop where
  side : ∃ negative : Bool, x.signedUnits = (if negative then -(x.units : ℤ) else x.units) ∧
    y.signedUnits = if negative then -(y.units : ℤ) else y.units
  magnitude : y.magnitude = x.magnitude + 1

theorem exists_next_of_neg (hx : x.isFinite = true) (hneg : x.signedUnits < 0)
    (h : x.signedUnits < y.signedUnits) : ∃ z : Binary F, z.isFinite = true ∧
      x.signedUnits < z.signedUnits ∧ z.signedUnits ≤ y.signedUnits ∧ z.Consecutive x := by
  have hxs : x.signedUnits = -x.units := x.signedUnits_eq.resolve_left (by omega)
  have hzero : x.magnitude ≠ 0 := fun h0 => by
    rw [hxs, units, significand, h0, Nat.zero_sub, Nat.zero_mul] at hneg
    exact lt_irrefl 0 hneg
  obtain ⟨z, hz, hsign, hmagnitude⟩ := exists_magnitude (F := F) true
    (Nat.lt_of_le_of_lt (Nat.sub_le x.magnitude 1) (of_decide_eq_true hx))
  have hzs : z.signedUnits = -z.units := if_pos hsign
  have hzx : z.units < x.units := units_lt_iff.mpr (by omega)
  refine ⟨z, hz, by omega, ?_, ⟨true, hzs, hxs⟩, by omega⟩
  rcases y.signedUnits_eq with hys | hys
  · omega
  · have hyx : y.magnitude < x.magnitude := units_lt_iff.mp (by omega)
    have hyz : y.units ≤ z.units := units_le_iff.mpr (by omega)
    omega

theorem exists_next_of_nonneg (hy : y.isFinite = true) (hpos : 0 ≤ x.signedUnits)
    (h : x.signedUnits < y.signedUnits) : ∃ z : Binary F, z.isFinite = true ∧
      x.signedUnits < z.signedUnits ∧ z.signedUnits ≤ y.signedUnits ∧ x.Consecutive z := by
  have hxs : x.signedUnits = x.units := by
    have := x.signedUnits_eq
    omega
  have hys : y.signedUnits = y.units := y.signedUnits_eq.resolve_right (by omega)
  have hxy : x.magnitude < y.magnitude := units_lt_iff.mp (by omega)
  obtain ⟨z, hz, hsign, hmagnitude⟩ := exists_magnitude (F := F) false
    (Nat.lt_of_le_of_lt (Nat.succ_le_of_lt hxy) (of_decide_eq_true hy))
  have hzs : z.signedUnits = z.units := if_neg (by rw [hsign]; exact Bool.false_ne_true)
  have hxz : x.units < z.units := units_lt_iff.mpr (by omega)
  have hzy : z.units ≤ y.units := units_le_iff.mpr (by omega)
  exact ⟨z, hz, by omega, by omega, ⟨false, hxs, hzs⟩, hmagnitude⟩

theorem exists_next (hx : x.isFinite = true) (hy : y.isFinite = true) (h : x.value < y.value) :
    ∃ z : Binary F, z.isFinite = true ∧ x.value < z.value ∧ z.value ≤ y.value ∧
      (x.Consecutive z ∨ z.Consecutive x) := by
  simp only [value_lt_value, value_le_value] at h ⊢
  rcases lt_or_ge x.signedUnits 0 with hneg | hpos
  · obtain ⟨z, hz, hxz, hzy, hnext⟩ := exists_next_of_neg hx hneg h
    exact ⟨z, hz, hxz, hzy, .inr hnext⟩
  · obtain ⟨z, hz, hxz, hzy, hnext⟩ := exists_next_of_nonneg hy hpos h
    exact ⟨z, hz, hxz, hzy, .inl hnext⟩

theorem Consecutive.not_both_even (hp : 2 ≤ F.precision) (h : x.Consecutive y) :
    ¬(x.significand % 2 = 0 ∧ y.significand % 2 = 0) := by
  have hparity (w : Binary F) : w.significand % 2 = w.magnitude % 2 := by
    rw [(exists_parts w).1, Nat.add_mod, Nat.mul_mod, BinaryFormat.even_hidden hp]
    simp
  have hmagnitude := h.magnitude
  rw [hparity, hparity]
  omega

theorem magnitude_eq_of_value_eq (h : x.value = y.value) : x.magnitude = y.magnitude := by
  have hunits : x.units = y.units := by
    have := congrArg Int.natAbs (value_eq_value.mp h)
    rcases x.signedUnits_eq with hx | hx <;> rcases y.signedUnits_eq with hy | hy <;> omega
  exact le_antisymm (units_le_iff.mp hunits.le) (units_le_iff.mp hunits.ge)

end

theorem abs_sub_le_abs_sub {a b c : ℚ} (h : a < b) : |a - c| ≤ |b - c| ↔ 2 * c ≤ a + b := by
  rw [← sq_le_sq]
  constructor <;> intro h' <;> nlinarith

theorem abs_sub_le_abs_sub' {a b c : ℚ} (h : a < b) : |b - c| ≤ |a - c| ↔ a + b ≤ 2 * c := by
  rw [← sq_le_sq]
  constructor <;> intro h' <;> nlinarith

section
variable {q : ℚ} {x y : Binary F}

theorem Nearest.not_value_lt (hp : 2 ≤ F.precision) (hx : x.Nearest q) (hy : y.Nearest q) :
    ¬x.value < y.value := by
  intro h
  have htie : |y.value - q| = |x.value - q| :=
    le_antisymm (hy.least x hx.finite) (hx.least y hy.finite)
  have hxeven := (hx.even y hy.finite htie).resolve_left h.ne'
  have hyeven := (hy.even x hx.finite htie.symm).resolve_left h.ne
  obtain ⟨z, hz, hxz, hzy, hnext⟩ := exists_next hx.finite hy.finite h
  have hlow := (abs_sub_le_abs_sub hxz).mp (hx.least z hz)
  have hhigh := (abs_sub_le_abs_sub' h).mp htie.le
  have hmagnitude := magnitude_eq_of_value_eq (le_antisymm hzy (by linarith))
  have hzeven : z.significand % 2 = 0 := by
    rwa [significand, exponent, hmagnitude]
  rcases hnext with hnext | hnext
  · exact hnext.not_both_even hp ⟨hxeven, hzeven⟩
  · exact hnext.not_both_even hp ⟨hzeven, hxeven⟩

theorem Nearest.iff_value_eq (hp : 2 ≤ F.precision) (hy : y.Nearest q) :
    x.Nearest q ↔ x.value = y.value := by
  constructor
  · intro hx
    exact le_antisymm (not_lt.mp (hy.not_value_lt hp hx)) (not_lt.mp (hx.not_value_lt hp hy))
  · intro h
    have hmagnitude := magnitude_eq_of_value_eq h
    refine ⟨?_, fun z hz => h ▸ hy.least z hz, fun z hz htie => ?_⟩
    · rw [isFinite, hmagnitude]
      exact hy.finite
    · rw [h] at htie ⊢
      rw [significand, exponent, hmagnitude]
      exact hy.even z hz htie

end

-- ---------------------------------------------------------------------------
-- Midpoints
-- ---------------------------------------------------------------------------

theorem exists_of_parts {e r : Nat} (negative : Bool) (hr : r ≤ 2 * F.hidden)
    (he : e = 0 ∨ F.hidden ≤ r) (hlt : e + 2 < 2 ^ F.exponentBits - 1) :
    ∃ x : Binary F, x.isFinite = true ∧ x.negative = negative ∧ x.units = r * 2 ^ e := by
  obtain ⟨x, hx, hsign, hmagnitude⟩ := exists_magnitude negative (F.parts_lt_infinity hr hlt)
  exact ⟨x, hx, hsign, units_of_parts hmagnitude hr he⟩

/-- Whatever fits a significand is a number at every exponent: leading zeros become a lower
exponent. -/
theorem exists_units {c j : Nat} (negative : Bool) (hc : c ≤ 2 * F.hidden)
    (hj : j + 2 < 2 ^ F.exponentBits - 1) :
    ∃ x : Binary F, x.isFinite = true ∧ x.negative = negative ∧ x.units = c * 2 ^ j := by
  induction j generalizing c with
  | zero => exact exists_of_parts negative hc (.inl rfl) hj
  | succ j ih =>
    rcases Nat.lt_or_ge c F.hidden with h | h
    · obtain ⟨x, hx, hsign, hunits⟩ := ih (c := 2 * c) (by omega) (by omega)
      exact ⟨x, hx, hsign, by rw [hunits, pow_succ']; ring⟩
    · exact exists_of_parts negative hc (.inr h) hj

section
variable {x y : Binary F}

theorem exponent_lt (hx : x.isFinite = true) : x.exponent + 1 < 2 ^ F.exponentBits := by
  obtain ⟨hparts, -, hexponent⟩ := exists_parts x
  have hlt : x.magnitude < (2 ^ F.exponentBits - 1) * F.hidden := of_decide_eq_true hx
  rcases hexponent with hexponent | hexponent
  · have := Nat.pos_of_mul_pos_right (Nat.zero_lt_of_lt hlt)
    omega
  · have hle : (x.exponent + 1) * F.hidden ≤ x.magnitude := by
      rw [hparts, Nat.succ_mul]
      exact Nat.add_le_add_left hexponent _
    have := Nat.lt_of_mul_lt_mul_right (Nat.lt_of_le_of_lt hle hlt)
    omega

/-- Halfway between two consecutive numbers there is a number of a finer format. -/
theorem Consecutive.exists_midpoint (hp : 0 < F.precision) (hG : G.Finer F)
    (hx : x.isFinite = true) (h : x.Consecutive y) :
    ∃ m : Binary G, m.isFinite = true ∧ x.value + y.value = 2 * m.value := by
  obtain ⟨k, hk⟩ := Nat.exists_eq_add_of_lt hG.unitBits
  have hhidden : 2 * F.hidden ≤ G.hidden := by
    rw [← BinaryFormat.two_pow_precision hp]
    exact Nat.pow_le_pow_right (by omega) (Nat.le_pred_of_lt hG.precision)
  have hsignificand : 2 * x.significand + 1 ≤ 2 * G.hidden := by
    have := significand_lt x
    omega
  have hexponent : x.exponent + k + 2 < 2 ^ G.exponentBits - 1 := by
    have := exponent_lt hx
    have := hG.exponents
    omega
  obtain ⟨negative, hxs, hys⟩ := h.side
  -- Twice the significand and one, in units half as large: a format of one more bit holds it.
  obtain ⟨m, hm, hsign, hunits⟩ := exists_units negative hsignificand hexponent
  refine ⟨m, hm, ?_⟩
  have hsum : (x.units + y.units) * 2 ^ (k + 1) = 2 * m.units := by
    rw [hunits, units_succ h.magnitude, units, Nat.pow_eq, pow_add, pow_succ]
    ring
  have hsigned : (x.signedUnits + y.signedUnits) * 2 ^ (k + 1) = 2 * m.signedUnits := by
    rw [hxs, hys, signedUnits, hsign]
    zify at hsum
    cases negative
    · exact hsum
    · simp only [if_true]
      linarith
  have hscale : (2 : ℚ) ^ G.unitBits = 2 ^ F.unitBits * 2 ^ (k + 1) := by
    rw [hk, add_assoc, pow_add]
  rw [value, value, value, hscale, ← add_div, mul_div_assoc', div_eq_div_iff (by positivity)
    (by positivity), mul_comm (2 ^ F.unitBits : ℚ), ← mul_assoc]
  exact congrArg (· * (2 : ℚ) ^ F.unitBits) (by exact_mod_cast hsigned)

end

-- ---------------------------------------------------------------------------
-- Two roundings
-- ---------------------------------------------------------------------------

section
variable {q : ℚ} {x y : Binary F} {d : Binary G}

theorem Nearest.tie_of_lt (hp : 0 < F.precision) (hG : G.Finer F) (hd : d.Nearest q)
    (hx : x.Nearest d.value) (hy : y.isFinite = true) (hlt : x.value < y.value)
    (hle : |y.value - q| ≤ |x.value - q|) :
    ∃ z : Binary F, z.isFinite = true ∧ x.value + z.value = 2 * d.value ∧ x.value < d.value ∧
      d.value ≤ q := by
  obtain ⟨z, hz, hxz, hzy, hnext⟩ := exists_next hx.finite hy hlt
  have hmid : ∃ m : Binary G, m.isFinite = true ∧ x.value + z.value = 2 * m.value := by
    rcases hnext with hnext | hnext
    · exact hnext.exists_midpoint hp hG hx.finite
    · rw [add_comm]
      exact hnext.exists_midpoint hp hG hz
  obtain ⟨m, hm, hmid⟩ := hmid
  have hdm : 2 * d.value ≤ x.value + z.value := (abs_sub_le_abs_sub hxz).mp (hx.least z hz)
  have hyq : x.value + y.value ≤ 2 * q := (abs_sub_le_abs_sub' hlt).mp hle
  -- The midpoint is between `d` and `q`, and no number of its format is nearer to `q` than `d`.
  have hdm' : m.value ≤ d.value := by
    have := hd.least m hm
    rwa [abs_of_nonpos (by linarith), abs_of_nonpos (by linarith), neg_le_neg_iff,
      sub_le_sub_iff_right] at this
  exact ⟨z, hz, by linarith, by linarith, by linarith⟩

theorem Nearest.tie_of_gt (hp : 0 < F.precision) (hG : G.Finer F) (hd : d.Nearest q)
    (hx : x.Nearest d.value) (hy : y.isFinite = true) (hgt : y.value < x.value)
    (hle : |y.value - q| ≤ |x.value - q|) :
    ∃ z : Binary F, z.isFinite = true ∧ x.value + z.value = 2 * d.value ∧ d.value < x.value ∧
      q ≤ d.value := by
  have hx' : x.negate.Nearest d.negate.value := by
    rw [value_negate]
    exact hx.negate
  have hlt' : x.negate.value < y.negate.value := by
    rwa [value_negate, value_negate, neg_lt_neg_iff]
  have hle' : |y.negate.value - -q| ≤ |x.negate.value - -q| := by
    rwa [abs_value_negate_sub, abs_value_negate_sub, neg_neg]
  obtain ⟨z, hz, hmid, hxd, hdq⟩ := hd.negate.tie_of_lt hp hG hx' (y := y.negate) hy hlt' hle'
  simp only [value_negate] at hmid hxd hdq
  refine ⟨z.negate, hz, ?_, neg_lt_neg_iff.mp hxd, neg_le_neg_iff.mp hdq⟩
  rw [value_negate]
  linarith

/-- `d` is midway between `x` and another number, and `q` on the side of that other number. -/
def Strays (x : Binary F) (d : Binary G) (q : ℚ) : Prop :=
  ∃ y : Binary F, y.isFinite = true ∧ x.value + y.value = 2 * d.value ∧
    (x.value < d.value ∧ d.value < q ∨ q < d.value ∧ d.value < x.value)

/-- Rounding by way of a finer format gives the nearest number unless the first rounding leads to
a tie that the second one breaks the wrong way. -/
theorem Nearest.nearest_iff (hp : 0 < F.precision) (hG : G.Finer F) (hd : d.Nearest q)
    (hx : x.Nearest d.value) : x.Nearest q ↔ ¬x.Strays d q := by
  constructor
  · rintro hxq ⟨y, hy, hmid, ⟨hxd, hdq⟩ | ⟨hqd, hdx⟩⟩
    · have := (abs_sub_le_abs_sub (by linarith)).mp (hxq.least y hy)
      linarith
    · have := (abs_sub_le_abs_sub' (by linarith)).mp (hxq.least y hy)
      linarith
  · intro hstrays
    by_cases hdq : d.value = q
    · exact hdq ▸ hx
    have hfar (y : Binary F) (hy : y.isFinite = true) (hle : |y.value - q| ≤ |x.value - q|) :
        y.value = x.value := by
      rcases lt_trichotomy x.value y.value with hlt | heq | hgt
      · obtain ⟨z, hz, hmid, hxd, hle⟩ := hd.tie_of_lt hp hG hx hy hlt hle
        exact (hstrays ⟨z, hz, hmid, .inl ⟨hxd, lt_of_le_of_ne hle hdq⟩⟩).elim
      · exact heq.symm
      · obtain ⟨z, hz, hmid, hdx, hle⟩ := hd.tie_of_gt hp hG hx hy hgt hle
        exact (hstrays ⟨z, hz, hmid, .inr ⟨lt_of_le_of_ne hle (Ne.symm hdq), hdx⟩⟩).elim
    refine ⟨hx.finite, fun y hy => ?_, fun y hy heq => .inl (hfar y hy heq.le)⟩
    rcases le_total |x.value - q| |y.value - q| with hle | hle
    · exact hle
    · rw [hfar y hy hle]

theorem exists_ofInt {n : ℤ} (hn : n.natAbs ≤ 2 * F.hidden)
    (hF : F.unitBits + 2 < 2 ^ F.exponentBits - 1) :
    ∃ x : Binary F, x.isFinite = true ∧ x.value = n := by
  obtain ⟨x, hx, hsign, hunits⟩ := exists_units (n < 0 : Bool) hn hF
  refine ⟨x, hx, ?_⟩
  have hsigned : x.signedUnits = n * 2 ^ F.unitBits := by
    calc x.signedUnits
      _ = (if decide (n < 0) = true then -(n.natAbs : ℤ) else n.natAbs) * 2 ^ F.unitBits := by
        rw [signedUnits, hsign, hunits]
        split <;> push_cast <;> ring
      _ = n * 2 ^ F.unitBits := by rw [ite_natAbs]
  exact value_of_signedUnits hsigned

end

end Binary

-- ---------------------------------------------------------------------------
-- Integers in single precision
-- ---------------------------------------------------------------------------

theorem BinaryFormat.double_sound : BinaryFormat.double.Sound := ⟨by decide, by decide⟩

theorem BinaryFormat.single_sound : BinaryFormat.single.Sound := ⟨by decide, by decide⟩

theorem BinaryFormat.double_finer_single : BinaryFormat.double.Finer .single :=
  ⟨by decide, by decide, by decide⟩

theorem convert_double (n : Int64) : (Target.number (.real .double)).convert (.integer n) =
    .ok (Binary.ofInt n.toInt : Double) := by
  simp [Target.convert, Numeric.convert, Tree.asReal?, Precision.ofDouble]

theorem nearest_ofInt_toInt {F : BinaryFormat} (hF : F.Sound) (h : 64 < 2 ^ (F.exponentBits - 1))
    (n : Int64) : (Binary.ofInt n.toInt : Binary F).Nearest n.toInt := by
  have := n.le_toInt
  have := n.toInt_lt
  exact Binary.nearest_ofInt hF h (by omega)

/-- An integer becomes the single nearest to the double nearest to it. That is the single nearest
to the integer itself, to which it would be rounded at once, unless the double is a tie that breaks
the wrong way. It never is when the integer is a double. -/
theorem single_of_integer (n : Int64) : ∃ (d : Double) (x : Single),
    (Target.number (.real .double)).convert (.integer n) = .ok d ∧
    (Target.number (.real .single)).convert (.integer n) = .ok x ∧
    d.Nearest n.toInt ∧ x.Nearest d.value ∧
    (x.Nearest n.toInt ↔ x.value = (Binary.ofInt n.toInt : Single).value) ∧
    (x.Nearest n.toInt ↔ ¬x.Strays d n.toInt) ∧
    (n.toInt.natAbs ≤ 2 ^ 53 → x.Nearest n.toInt) := by
  have hd := nearest_ofInt_toInt BinaryFormat.double_sound (by decide) n
  have hdirect := nearest_ofInt_toInt BinaryFormat.single_sound (by decide) n
  have hbound : |(Binary.ofInt n.toInt : Double).value| < 2 ^ 65 := by
    have hle := hd.abs_value_le (by decide)
    have hn : |(n.toInt : ℚ)| ≤ 2 ^ 63 := by
      have := n.le_toInt
      have := n.toInt_lt
      rw [← Int.cast_abs]
      exact_mod_cast abs_le.mpr ⟨by omega, by omega⟩
    linarith
  have hx : ((Binary.ofInt n.toInt : Double).convert .single).Nearest _ :=
    Binary.nearest_convert BinaryFormat.single_sound (by decide) hd.finite hbound
  have hiff := hd.nearest_iff (by decide) BinaryFormat.double_finer_single hx
  refine ⟨_, _, convert_double n, ?_, hd, hx, hdirect.iff_value_eq (by decide), hiff, fun hn => ?_⟩
  · simp [Target.convert, Numeric.convert, Tree.asReal?, Precision.ofDouble, hx.finite]
  · obtain ⟨y, hy, hvalue⟩ := Binary.exists_ofInt (F := .double) hn (by decide)
    rw [hd.value_eq hy hvalue] at hx
    exact hx

theorem single_of_integer_tie : ∃ x : Single,
    (Target.number (.real .single)).convert (.integer 16777217) = .ok x ∧
      x.Nearest (Int64.toInt 16777217) := by
  obtain ⟨-, x, -, hx, -, -, -, -, hexact⟩ := single_of_integer 16777217
  exact ⟨x, hx, hexact (by decide)⟩

/-- The double is halfway between two singles, and the integer is just above it. -/
theorem single_of_integer_between : ∃ x : Single,
    (Target.number (.real .single)).convert (.integer 9007199791611905) = .ok x ∧
      x.value = 9007199254740992 ∧ ¬x.Nearest 9007199791611905 := by
  have hx : (⟨false, 0x5a000000, by decide⟩ : Single).value = (9007199254740992 : ℤ) :=
    Binary.value_of_signedUnits (by decide +kernel)
  have hy : (⟨false, 0x5a000001, by decide⟩ : Single).value = (9007200328482816 : ℤ) :=
    Binary.value_of_signedUnits (by decide +kernel)
  refine ⟨_, by decide +kernel, hx, fun h => ?_⟩
  have hle := h.least ⟨false, 0x5a000001, by decide⟩ (by decide +kernel)
  rw [hx, hy] at hle
  norm_num at hle

end SolverConfig
