import Mathlib.Algebra.Order.Field.Rat
import Mathlib.Tactic.Linarith
import Mathlib.Tactic.Positivity
import Mathlib.Tactic.Ring
import SolverConfig.Number.Binary

/-!
# Rounding to nearest

A quotient is rounded to the number of a format that is nearest to it, and of two to the one whose
significand is even, as long as it is no larger than the numbers of the format are.
-/

namespace SolverConfig

namespace BinaryFormat

variable {F : BinaryFormat}

/-- A significand has a bit after the leading one, and the exponents leave room for numbers on
either side of one. -/
structure Sound (F : BinaryFormat) : Prop where
  precision : 2 ≤ F.precision
  exponentBits : 2 ≤ F.exponentBits

theorem two_pow_precision (h : 0 < F.precision) : 2 ^ F.precision = 2 * F.hidden := by
  rw [hidden, Nat.pow_eq, ← pow_succ', Nat.sub_add_cancel h]

theorem even_hidden (h : 2 ≤ F.precision) : F.hidden % 2 = 0 := by
  obtain ⟨n, hn⟩ := Nat.exists_eq_add_of_le h
  rw [hidden, Nat.pow_eq, hn, show 2 + n - 1 = n + 1 by omega, pow_succ]
  exact Nat.mul_mod_left ..

theorem parts_lt_infinity (F : BinaryFormat) {e r : Nat} (hr : r ≤ 2 * F.hidden)
    (he : e + 2 < 2 ^ F.exponentBits - 1) : e * F.hidden + r < F.infinity := by
  calc e * F.hidden + r
    _ ≤ e * F.hidden + 2 * F.hidden := Nat.add_le_add_left hr _
    _ = (e + 2) * F.hidden := (Nat.add_mul ..).symm
    _ < F.infinity := Nat.mul_lt_mul_of_pos_right he F.hidden_pos

end BinaryFormat

-- ---------------------------------------------------------------------------
-- Values
-- ---------------------------------------------------------------------------

namespace Binary

variable {F : BinaryFormat}

def signedUnits (x : Binary F) : Int := if x.negative then -x.units else x.units

def value (x : Binary F) : ℚ := x.signedUnits / 2 ^ F.unitBits

/-- No finite number is nearer to `q`, and one as near only if the significand is even. -/
structure Nearest (q : ℚ) (x : Binary F) : Prop where
  finite : x.isFinite = true
  least : ∀ y : Binary F, y.isFinite = true → |x.value - q| ≤ |y.value - q|
  even : ∀ y : Binary F, y.isFinite = true → |y.value - q| = |x.value - q| →
    y.value = x.value ∨ x.significand % 2 = 0

section
variable {x y : Binary F} {e r : Nat}

theorem exponent_of_parts (hx : x.magnitude = e * F.hidden + r) (hr : r < 2 * F.hidden)
    (he : e = 0 ∨ F.hidden ≤ r) : x.exponent = e ∧ x.significand = r := by
  have hexponent : x.exponent = e := by
    rw [exponent, hx, Nat.mul_comm, Nat.mul_add_div F.hidden_pos]
    rcases Nat.lt_or_ge r F.hidden with hsmall | hlarge
    · rw [Nat.div_eq_of_lt hsmall]
      omega
    · rw [Nat.div_eq_of_lt_le (k := 1) (by omega) (by omega), Nat.add_sub_cancel]
  exact ⟨hexponent, by rw [significand, hexponent, hx, Nat.add_sub_cancel_left]⟩

theorem exists_parts (x : Binary F) : x.magnitude = x.exponent * F.hidden + x.significand ∧
    x.significand < 2 * F.hidden ∧ (x.exponent = 0 ∨ F.hidden ≤ x.significand) := by
  have hmod := Nat.mod_lt x.magnitude F.hidden_pos
  have hdiv := Nat.div_add_mod' x.magnitude F.hidden
  have hparts : ∃ e r, x.magnitude = e * F.hidden + r ∧ r < 2 * F.hidden ∧
      (e = 0 ∨ F.hidden ≤ r) := by
    generalize x.magnitude / F.hidden = q at hdiv
    cases q with
    | zero => exact ⟨0, _, hdiv.symm, by omega, .inl rfl⟩
    | succ e =>
      rw [Nat.succ_mul, Nat.add_assoc] at hdiv
      exact ⟨e, _, hdiv.symm, by omega, .inr (Nat.le_add_right ..)⟩
  obtain ⟨e, r, hx, hr, he⟩ := hparts
  obtain ⟨rfl, rfl⟩ := exponent_of_parts hx hr he
  exact ⟨hx, hr, he⟩

theorem significand_lt (x : Binary F) : x.significand < 2 * F.hidden := (exists_parts x).2.1

/-- The parts of a number may be given with a significand that has just become the next power of
two. -/
theorem units_of_parts (hx : x.magnitude = e * F.hidden + r) (hr : r ≤ 2 * F.hidden)
    (he : e = 0 ∨ F.hidden ≤ r) : x.units = r * 2 ^ e := by
  have hpos := F.hidden_pos
  rcases Nat.lt_or_eq_of_le hr with hr | rfl
  · obtain ⟨hexponent, hsignificand⟩ := exponent_of_parts hx hr he
    rw [units, hexponent, hsignificand, Nat.pow_eq]
  · have hx' : x.magnitude = (e + 1) * F.hidden + F.hidden := by rw [hx]; ring
    obtain ⟨hexponent, hsignificand⟩ := exponent_of_parts hx' (by omega) (.inr le_rfl)
    rw [units, hexponent, hsignificand, Nat.pow_eq]
    ring

theorem units_lt_units (h : x.magnitude < y.magnitude) : x.units < y.units := by
  obtain ⟨hx, hxlt, -⟩ := exists_parts x
  obtain ⟨hy, -, hyle⟩ := exists_parts y
  rw [units, units, Nat.pow_eq]
  rcases Nat.lt_trichotomy x.exponent y.exponent with hlt | heq | hgt
  · have hsignificand : F.hidden ≤ y.significand := hyle.resolve_left (by omega)
    calc x.significand * 2 ^ x.exponent
      _ < 2 * F.hidden * 2 ^ x.exponent := Nat.mul_lt_mul_of_pos_right hxlt (by positivity)
      _ = F.hidden * 2 ^ (x.exponent + 1) := by ring
      _ ≤ y.significand * 2 ^ y.exponent :=
        Nat.mul_le_mul hsignificand (Nat.pow_le_pow_right (by omega) hlt)
  · rw [heq] at hx ⊢
    exact Nat.mul_lt_mul_of_pos_right (by omega) (by positivity)
  · have hxle := (exists_parts x).2.2.resolve_left (by omega)
    have hylt := significand_lt y
    have hle : (y.exponent + 1) * F.hidden ≤ x.exponent * F.hidden :=
      Nat.mul_le_mul_right _ hgt
    rw [Nat.succ_mul] at hle
    omega

theorem even_significand_of_parts (hp : 2 ≤ F.precision)
    (hx : x.magnitude = e * F.hidden + r) (hr : r ≤ 2 * F.hidden) (he : e = 0 ∨ F.hidden ≤ r)
    (heven : r % 2 = 0) : x.significand % 2 = 0 := by
  have hpos := F.hidden_pos
  rcases Nat.lt_or_eq_of_le hr with hr | rfl
  · rwa [(exponent_of_parts hx hr he).2]
  · have hx' : x.magnitude = (e + 1) * F.hidden + F.hidden := by rw [hx]; ring
    rw [(exponent_of_parts hx' (by omega) (.inr le_rfl)).2]
    exact BinaryFormat.even_hidden hp

theorem signedUnits_eq (x : Binary F) :
    x.signedUnits = x.units ∨ x.signedUnits = -(x.units : ℤ) := by
  rw [signedUnits]
  split
  · exact .inr rfl
  · exact .inl rfl

theorem signedUnits_le (x : Binary F) : x.signedUnits ≤ x.units := by
  have := x.signedUnits_eq
  omega

theorem exists_multiple (h : e ≤ x.exponent) : ∃ k : ℤ, x.signedUnits = k * 2 ^ e := by
  obtain ⟨n, hn⟩ := Nat.exists_eq_add_of_le' h
  have hunits : (x.units : ℤ) = x.significand * 2 ^ n * 2 ^ e := by
    rw [units, hn, Nat.pow_eq, pow_add]
    push_cast
    ring
  rw [signedUnits, hunits]
  split
  · exact ⟨-(x.significand * 2 ^ n), (neg_mul ..).symm⟩
  · exact ⟨_, rfl⟩

theorem signedUnits_lt (h : x.exponent < e) : x.signedUnits < F.hidden * 2 ^ e := by
  have hunits : x.units < F.hidden * 2 ^ e := by
    calc x.units
      _ < 2 * F.hidden * 2 ^ x.exponent :=
        Nat.mul_lt_mul_of_pos_right (significand_lt x) (Nat.two_pow_pos _)
      _ = F.hidden * 2 ^ (x.exponent + 1) := by ring
      _ ≤ F.hidden * 2 ^ e := Nat.mul_le_mul_left _ (Nat.pow_le_pow_right (by omega) h)
  exact lt_of_le_of_lt x.signedUnits_le (by exact_mod_cast hunits)

theorem units_le_iff : x.units ≤ y.units ↔ x.magnitude ≤ y.magnitude := by
  constructor
  · exact fun h => Nat.not_lt.mp fun hlt => Nat.not_lt.mpr h (units_lt_units hlt)
  · intro h
    rcases Nat.lt_or_eq_of_le h with h | h
    · exact (units_lt_units h).le
    · rw [units, units, significand, significand, exponent, exponent, h]

theorem units_lt_iff : x.units < y.units ↔ x.magnitude < y.magnitude :=
  lt_iff_lt_of_le_iff_le units_le_iff

theorem value_eq_value : x.value = y.value ↔ x.signedUnits = y.signedUnits := by
  rw [value, value, div_left_inj' (by positivity), Int.cast_inj]

theorem value_lt_value : x.value < y.value ↔ x.signedUnits < y.signedUnits := by
  rw [value, value, div_lt_div_iff_of_pos_right (by positivity), Int.cast_lt]

theorem value_le_value : x.value ≤ y.value ↔ x.signedUnits ≤ y.signedUnits := by
  rw [← not_lt, value_lt_value, not_lt]

theorem value_of_signedUnits {n : ℤ} (h : x.signedUnits = n * 2 ^ F.unitBits) : x.value = n := by
  rw [value, h, Int.cast_mul, Int.cast_pow, Int.cast_ofNat,
    mul_div_cancel_right₀ _ (by positivity)]

theorem exists_magnitude {m : Nat} (negative : Bool) (h : m < F.infinity) :
    ∃ x : Binary F, x.isFinite = true ∧ x.negative = negative ∧ x.magnitude = m :=
  ⟨⟨negative, m, h.trans F.infinity_lt_bound⟩, decide_eq_true h, rfl, rfl⟩

end
end Binary

-- ---------------------------------------------------------------------------
-- Quotients
-- ---------------------------------------------------------------------------

section
variable {num den : Nat}

theorem roundQuotient_cases (num den : Nat) :
    roundQuotient num den = num / den ∧ 2 * (num % den) ≤ den ∧
        (2 * (num % den) = den → num / den % 2 = 0) ∨
      roundQuotient num den = num / den + 1 ∧ den ≤ 2 * (num % den) ∧
        (2 * (num % den) = den → (num / den + 1) % 2 = 0) := by
  rw [roundQuotient]
  split
  · exact .inl ⟨rfl, by omega, by omega⟩
  split
  · exact .inr ⟨rfl, by omega, by omega⟩
  split
  · exact .inl ⟨rfl, by omega, fun _ => ‹_›⟩
  · exact .inr ⟨rfl, by omega, by omega⟩

theorem roundQuotient_le {k : Nat} (hden : 0 < den) (h : num ≤ k * den) :
    roundQuotient num den ≤ k := by
  have hle : num / den ≤ k := Nat.div_le_of_le_mul (Nat.mul_comm k den ▸ h)
  rcases roundQuotient_cases num den with ⟨hr, -⟩ | ⟨hr, hrest, -⟩
  · rwa [hr]
  · rw [hr]
    refine Nat.lt_of_le_of_ne hle fun heq => ?_
    have hdiv := Nat.div_add_mod' num den
    rw [heq] at hdiv
    omega

theorem le_roundQuotient {k : Nat} (hden : 0 < den) (h : k * den ≤ num) :
    k ≤ roundQuotient num den := by
  have hle : k ≤ num / den := (Nat.le_div_iff_mul_le hden).mpr h
  rcases roundQuotient_cases num den with ⟨hr, -⟩ | ⟨hr, -⟩ <;> omega

/-- No multiple is nearer than the rounded one, and another is as near only if that is even. -/
theorem roundQuotient_nearest (num : Nat) (hden : 0 < den) (k : ℤ) :
    ((roundQuotient num den : ℤ) * den - num).natAbs ≤ (k * den - num).natAbs ∧
      ((k * den - num).natAbs = ((roundQuotient num den : ℤ) * den - num).natAbs →
        k = roundQuotient num den ∨ roundQuotient num den % 2 = 0) := by
  have hmod : num % den < den := Nat.mod_lt num hden
  have hnum : (num : ℤ) = (num / den : ℕ) * den + (num % den : ℕ) := by
    exact_mod_cast (Nat.div_add_mod' num den).symm
  have hcases := roundQuotient_cases num den
  generalize num / den = q, num % den = t at hmod hnum hcases
  have hk : k * (den : ℤ) - num = (k - q) * den - t := by rw [hnum]; ring
  -- The multiples next to the quotient are compared as the remainder says, all others are further.
  have hother : k < q ∧ (k - q) * (den : ℤ) ≤ -den ∨ k = q ∨ k = q + 1 ∨
      (q : ℤ) + 1 < k ∧ 2 * (den : ℤ) ≤ (k - q) * den := by
    rcases Int.lt_or_le k q with h | h
    · exact .inl ⟨h, by nlinarith⟩
    rcases Int.lt_or_le (q + 1) k with h' | h'
    · exact .inr (.inr (.inr ⟨h', by nlinarith⟩))
    · omega
  rcases hcases with ⟨hr, hle, heven⟩ | ⟨hr, hle, heven⟩
  · have hrest : (q : ℤ) * den - num = -t := by rw [hnum]; ring
    rw [hr, hk, hrest]
    rcases hother with ⟨-, h⟩ | rfl | rfl | ⟨-, h⟩
    · omega
    · simp
    · rw [add_sub_cancel_left, one_mul]
      omega
    · omega
  · have hrest : ((q + 1 : ℕ) : ℤ) * den - num = den - t := by rw [hnum]; push_cast; ring
    rw [hr, hk, hrest]
    rcases hother with ⟨-, h⟩ | rfl | rfl | ⟨-, h⟩
    · omega
    · rw [sub_self, zero_mul]
      omega
    · simp
    · omega

end

-- ---------------------------------------------------------------------------
-- Rounding
-- ---------------------------------------------------------------------------

namespace Binary

variable {F : BinaryFormat}

section
variable {num den : Nat} (hp : 0 < F.precision)
include hp

theorem lt_spacing (hden : 0 < den) : num < 2 * F.hidden * (den * 2 ^ spacing F num den) := by
  have hlog := Nat.lt_log2_self (n := num)
  have hden' := Nat.log2_self_le hden.ne'
  rw [← BinaryFormat.two_pow_precision hp, mul_left_comm, ← pow_add, spacing, Nat.pow_eq]
  split
  case isTrue h => rwa [Nat.add_comm]
  case isFalse h =>
    calc num
      _ < 2 ^ (num.log2 + 1) := hlog
      _ ≤ 2 ^ (den.log2 + (F.precision + (num.log2 - (den.log2 + (F.precision - 1))))) :=
        Nat.pow_le_pow_right (by omega) (by omega)
      _ = 2 ^ den.log2 * 2 ^ (F.precision + (num.log2 - (den.log2 + (F.precision - 1)))) :=
        pow_add ..
      _ ≤ _ := Nat.mul_le_mul_right _ hden'

theorem spacing_le :
    spacing F num den = 0 ∨ F.hidden * (den * 2 ^ spacing F num den) ≤ num := by
  have hden' := Nat.lt_log2_self (n := den)
  rw [BinaryFormat.hidden, Nat.pow_eq, mul_left_comm, ← pow_add, spacing, Nat.pow_eq]
  generalize hguess : num.log2 - (den.log2 + (F.precision - 1)) = guess
  split
  case isTrue h =>
    rw [or_iff_not_imp_left]
    intro hne
    have hnum : num ≠ 0 := by
      rintro rfl
      simp at hguess
      omega
    calc den * 2 ^ (F.precision - 1 + (guess - 1))
      _ ≤ 2 ^ (den.log2 + 1) * 2 ^ (F.precision - 1 + (guess - 1)) :=
        Nat.mul_le_mul_right _ hden'.le
      _ = 2 ^ (den.log2 + 1 + (F.precision - 1 + (guess - 1))) := (pow_add ..).symm
      _ ≤ 2 ^ num.log2 := Nat.pow_le_pow_right (by omega) (by omega)
      _ ≤ num := Nat.log2_self_le hnum
  case isFalse h =>
    rw [or_iff_not_imp_left]
    intro hne
    rwa [Nat.not_lt, show guess - 1 + F.precision = F.precision - 1 + guess by omega] at h

end

section
variable {num den j : Nat} (hF : F.Sound) (hden : 0 < den) (hj : j < 2 ^ (F.exponentBits - 1))
  (hnum : num < den * 2 ^ (F.unitBits + j))
include hF hden hj hnum

omit hden in
theorem spacing_lt : spacing F num den + 2 < 2 ^ F.exponentBits - 1 := by
  have hp := hF.precision
  have hbits : 2 ^ F.exponentBits = 2 * 2 ^ (F.exponentBits - 1) := by
    rw [← pow_succ', Nat.sub_add_cancel (Nat.le_of_succ_le hF.exponentBits)]
  have htwo : 2 ^ 1 ≤ 2 ^ (F.exponentBits - 1) :=
    Nat.pow_le_pow_right (by omega) (Nat.le_sub_of_add_le hF.exponentBits)
  have hspacing : spacing F num den = 0 ∨ F.hidden * (den * 2 ^ spacing F num den) ≤ num :=
    spacing_le (Nat.zero_lt_of_lt hp)
  rcases hspacing with hzero | hle
  · omega
  · have hpow : den * 2 ^ (F.precision - 1 + spacing F num den) < den * 2 ^ (F.unitBits + j) := by
      refine Nat.lt_of_le_of_lt ?_ hnum
      rwa [BinaryFormat.hidden, Nat.pow_eq, mul_left_comm, ← pow_add] at hle
    have hexponent := (Nat.pow_lt_pow_iff_right (by omega)).mp (Nat.lt_of_mul_lt_mul_left hpow)
    rw [BinaryFormat.unitBits, Nat.pow_eq] at hexponent
    omega

theorem roundUnits_parts (s : Bool) : ∃ e r,
    (roundUnits s num den : Binary F).magnitude = e * F.hidden + r ∧
      e * F.hidden + r < F.infinity ∧ r = roundQuotient num (den * 2 ^ e) ∧ r ≤ 2 * F.hidden ∧
      (e = 0 ∨ F.hidden * (den * 2 ^ e) ≤ num) := by
  have hp : 0 < F.precision := Nat.zero_lt_of_lt hF.precision
  have hpos : 0 < den * 2 ^ spacing F num den := Nat.mul_pos hden (Nat.two_pow_pos _)
  have hr := roundQuotient_le hpos (lt_spacing hp hden).le
  have hfinite : spacing F num den * F.hidden + roundQuotient num (den * 2 ^ spacing F num den) <
      F.infinity :=
    F.parts_lt_infinity hr (spacing_lt hF hj hnum)
  refine ⟨_, _, ?_, hfinite, rfl, hr, spacing_le hp⟩
  rw [roundUnits, ofMagnitude]
  exact Nat.min_eq_left hfinite.le

/-- No number is nearer than the rounded quotient, here in units and without the sign. -/
theorem units_roundUnits_nearest (s : Bool) (y : Binary F) :
    let x : Binary F := roundUnits s num den
    ((x.units : ℤ) * den - num).natAbs ≤ (y.signedUnits * den - num).natAbs ∧
      ((y.signedUnits * den - num).natAbs = ((x.units : ℤ) * den - num).natAbs →
        y.signedUnits = x.units ∨ x.significand % 2 = 0) := by
  intro x
  obtain ⟨e, r, hx, -, hr, hle, hexponent⟩ := roundUnits_parts hF hden hj hnum s
  have hpos : 0 < den * 2 ^ e := Nat.mul_pos hden (Nat.two_pow_pos _)
  have hexponent' : e = 0 ∨ F.hidden ≤ r :=
    hexponent.imp_right fun h => hr ▸ le_roundQuotient hpos h
  have hunits : (x.units : ℤ) * den = r * (den * 2 ^ e : ℕ) := by
    rw [units_of_parts hx hle hexponent']
    push_cast
    ring
  rw [hunits]
  rcases Nat.lt_or_ge y.exponent e with hlt | hge
  · -- A number of a lower exponent is below the least one of the exponent, which is no nearer.
    have hhidden := (roundQuotient_nearest num hpos F.hidden).1
    have hnum' : (F.hidden * (den * 2 ^ e : ℕ) : ℤ) ≤ num := by
      exact_mod_cast hexponent.resolve_left (by omega)
    have hy : y.signedUnits * den < F.hidden * (den * 2 ^ e : ℕ) := by
      have := mul_lt_mul_of_pos_right (signedUnits_lt hlt) (Int.natCast_pos.mpr hden)
      push_cast
      linarith
    rw [← hr] at hhidden
    omega
  · obtain ⟨k, hk⟩ := exists_multiple hge
    have hy : y.signedUnits * den = k * (den * 2 ^ e : ℕ) := by
      rw [hk]
      push_cast
      ring
    obtain ⟨hnearest, heven⟩ := roundQuotient_nearest num hpos k
    rw [← hr] at hnearest heven
    rw [hy]
    refine ⟨hnearest, fun h => (heven h).imp (fun hkr => ?_) fun hr' => ?_⟩
    · rw [hk, hkr, units_of_parts hx hle hexponent']
      push_cast
      rfl
    · exact even_significand_of_parts hF.precision hx hle hexponent' hr'

end

-- ---------------------------------------------------------------------------
-- Nearest numbers
-- ---------------------------------------------------------------------------

section
variable {q : ℚ} {x y : Binary F}

theorem signedUnits_negate (y : Binary F) : y.negate.signedUnits = -y.signedUnits := by
  rw [signedUnits, signedUnits, negate]
  cases y.negative <;> simp [units, significand, exponent]

theorem value_negate (x : Binary F) : x.negate.value = -x.value := by
  rw [value, value, signedUnits_negate, Int.cast_neg, neg_div]

theorem abs_value_negate_sub (x : Binary F) (q : ℚ) : |x.negate.value - q| = |x.value - -q| := by
  rw [value_negate, ← abs_neg]
  congr 1
  ring

theorem Nearest.negate (h : x.Nearest q) : x.negate.Nearest (-q) := by
  refine ⟨h.finite, fun y hy => ?_, fun y hy heq => ?_⟩
  · rw [abs_value_negate_sub, neg_neg, ← abs_value_negate_sub y]
    exact h.least y.negate hy
  · rw [abs_value_negate_sub, neg_neg, ← abs_value_negate_sub y] at heq
    refine (h.even y.negate hy heq).imp_left fun h => ?_
    rw [value_negate, ← h, value_negate, neg_neg]

theorem Nearest.value_eq (h : x.Nearest q) (hy : y.isFinite = true) (hq : y.value = q) :
    x.value = q := by
  have hle := h.least y hy
  rw [hq, sub_self, abs_zero] at hle
  exact sub_eq_zero.mp (abs_nonpos_iff.mp hle)

theorem Nearest.abs_value_le (h : x.Nearest q) (hF : 0 < F.infinity) : |x.value| ≤ 2 * |q| := by
  obtain ⟨y, hy, -, hzero⟩ := exists_magnitude (F := F) false hF
  have hvalue : y.value = 0 := by
    simp [value, signedUnits, units, significand, hzero]
  have hle := h.least y hy
  rw [hvalue, zero_sub, abs_neg] at hle
  have := abs_sub_abs_le_abs_sub x.value q
  linarith

end

section
variable {num den j : Nat} {n : ℤ} {x y : Binary F}

theorem abs_value_sub (hden : 0 < den) (y : Binary F) : |y.value - n / den| =
    ((y.signedUnits * den - n * 2 ^ F.unitBits).natAbs : ℚ) / (den * 2 ^ F.unitBits) := by
  have hden' : (0 : ℚ) < den := Nat.cast_pos.mpr hden
  have hunit : (0 : ℚ) < 2 ^ F.unitBits := by positivity
  rw [value, div_sub_div _ _ hunit.ne' hden'.ne', abs_div, abs_of_pos (mul_pos hunit hden'),
    mul_comm (2 ^ F.unitBits : ℚ) den, Nat.cast_natAbs]
  push_cast
  rw [mul_comm (2 ^ F.unitBits : ℚ)]

theorem nearest_of_units (hden : 0 < den) (hfinite : x.isFinite = true)
    (h : ∀ y : Binary F,
      (x.signedUnits * den - n * 2 ^ F.unitBits).natAbs ≤
          (y.signedUnits * den - n * 2 ^ F.unitBits).natAbs ∧
        ((y.signedUnits * den - n * 2 ^ F.unitBits).natAbs =
            (x.signedUnits * den - n * 2 ^ F.unitBits).natAbs →
          y.signedUnits = x.signedUnits ∨ x.significand % 2 = 0)) :
    x.Nearest (n / den) := by
  have hunit : (0 : ℚ) < den * 2 ^ F.unitBits := by positivity
  refine ⟨hfinite, fun y _ => ?_, fun y _ heq => ?_⟩
  · rw [abs_value_sub hden, abs_value_sub hden, div_le_div_iff_of_pos_right hunit, Nat.cast_le]
    exact (h y).1
  · rw [abs_value_sub hden, abs_value_sub hden, div_left_inj' hunit.ne', Nat.cast_inj] at heq
    exact ((h y).2 heq).imp_left value_eq_value.mpr

theorem abs_signedUnits (y : Binary F) : |y.signedUnits| = y.units := by
  rw [signedUnits]
  split <;> simp

theorem nearest_ofRatio (hF : F.Sound) (hden : 0 < den) (hj : j < 2 ^ (F.exponentBits - 1))
    (hnum : num < den * 2 ^ j) (s : Bool) :
    (ofRatio s num den : Binary F).Nearest ((if s then -num else num : ℤ) / den) := by
  have hnum' : num * Nat.pow 2 F.unitBits < den * 2 ^ (F.unitBits + j) := by
    rw [Nat.pow_eq, pow_add, mul_left_comm, mul_comm num]
    exact Nat.mul_lt_mul_of_pos_left hnum (Nat.two_pow_pos _)
  obtain ⟨e, r, hx, hlt, -⟩ := roundUnits_parts hF hden hj hnum' s
  refine nearest_of_units hden ?_ fun y => ?_
  · rw [isFinite, ofRatio, hx]
    exact decide_eq_true hlt
  have hcast : ((num * Nat.pow 2 F.unitBits : ℕ) : ℤ) = num * 2 ^ F.unitBits := by
    rw [Nat.pow_eq]
    push_cast
    rfl
  have hunits := units_roundUnits_nearest hF hden hj hnum' s
  rw [hcast] at hunits
  have hsigned : (ofRatio s num den : Binary F).signedUnits =
      if s then -((ofRatio s num den : Binary F).units : ℤ)
      else (ofRatio s num den : Binary F).units := rfl
  rw [hsigned]
  cases s with
  | false => exact hunits y
  | true =>
    -- The nearest number to a negative quotient mirrors the one nearest to its absolute value.
    have hneg (a : ℤ) : (a * den - -(num : ℤ) * 2 ^ F.unitBits).natAbs =
        (-a * den - num * 2 ^ F.unitBits).natAbs := by
      rw [← Int.natAbs_neg]
      congr 1
      ring
    have hy := hunits y.negate
    rw [signedUnits_negate] at hy
    simp only [if_true, hneg, neg_neg]
    exact hy.imp_right fun h heq => (h heq).imp_left neg_eq_iff_eq_neg.mp

theorem ite_natAbs (n : ℤ) :
    (if decide (n < 0) = true then -(n.natAbs : ℤ) else n.natAbs) = n := by
  simp only [decide_eq_true_eq]
  split <;> omega

theorem nearest_ofInt (hF : F.Sound) (hj : j < 2 ^ (F.exponentBits - 1)) (hn : n.natAbs < 2 ^ j) :
    (ofInt n : Binary F).Nearest n := by
  have h := nearest_ofRatio hF Nat.one_pos hj (by rwa [one_mul]) (n < 0 : Bool)
  rwa [ite_natAbs, Nat.cast_one, div_one] at h

end

section
variable {G : BinaryFormat} {j : Nat} {x : Binary G}

/-- Numbers of one format round to the nearest ones of another. -/
theorem nearest_convert (hF : F.Sound) (hj : j < 2 ^ (F.exponentBits - 1))
    (hfinite : x.isFinite = true) (hx : |x.value| < 2 ^ j) : (x.convert F).Nearest x.value := by
  have hnan : x.isNaN = false := decide_eq_false (of_decide_eq_true hfinite).le.not_gt
  have hden : (0 : ℚ) < 2 ^ G.unitBits := by positivity
  have hunits : x.units < Nat.pow 2 G.unitBits * 2 ^ j := by
    rw [value, abs_div, abs_of_pos hden, div_lt_iff₀' hden, ← Int.cast_abs, abs_signedUnits] at hx
    exact_mod_cast hx
  have h := nearest_ofRatio hF (Nat.two_pow_pos _) hj hunits x.negative
  rw [← signedUnits, Nat.cast_pow, Nat.cast_ofNat] at h
  rw [convert, hnan, if_neg Bool.false_ne_true, if_pos hfinite]
  exact h

end

end Binary

end SolverConfig
