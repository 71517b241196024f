import SolverConfig.Proofs.Json.Recognition
import SolverConfig.Proofs.Json.Trees

/-!
# Written numbers

The text of an integer spells that integer. The text of a finite real spells a number that is no
integer by its form, since it has a point or an exponent.
-/

namespace SolverConfig

-- ---------------------------------------------------------------------------
-- Digits
-- ---------------------------------------------------------------------------

theorem digitsValue_decimalDigits (n : Nat) : digitsValue (decimalDigits n) = n := by
  have hvalue : digitsValue (decimalDigits n) = Nat.ofDigitChars 10 (Nat.toDigits 10 n) 0 :=
    Nat.ofDigitChars_eq_foldl.symm
  rw [hvalue, Nat.ofDigitChars_ten_toDigits]

theorem decimalDigits_head {n : Nat} (h : n ≠ 0) : (decimalDigits n).head? ≠ some '0' := by
  induction n using Nat.strongRecOn with
  | ind n ih =>
    unfold decimalDigits at ih ⊢
    by_cases hlt : n < 10
    · rw [Nat.toDigits_of_lt_base hlt]
      intro hzero
      exact h (Nat.digitChar_eq_zero.mp (Option.some.inj hzero))
    · rw [Nat.toDigits_of_base_le (by decide) (Nat.not_lt.mp hlt),
        List.head?_append_of_ne_nil _ Nat.toDigits_ne_nil]
      exact ih (n / 10) (by omega) (by omega)

namespace Json

theorem digits_decimalDigits (n : Nat) : Digits (decimalDigits n) := by
  refine ⟨Nat.toDigits_ne_nil, fun c hc => ?_⟩
  have hdigit : c.isDigit = true := Nat.isDigit_of_mem_toDigits (by decide) (by decide) hc
  simpa [Char.isDigit, PartialNumber.isDigit, Char.le_def] using hdigit

theorem wholeDigits_decimalDigits (n : Nat) : WholeDigits (decimalDigits n) := by
  refine ⟨digits_decimalDigits n, fun hzero => ?_⟩
  by_cases hn : n = 0
  · rw [hn]
    rfl
  · exact absurd hzero (decimalDigits_head hn)

theorem isDigit_zeros {n : Nat} : ∀ c ∈ zeros n, PartialNumber.isDigit c = true := by
  intro c hc
  rw [List.eq_of_mem_replicate hc]
  rfl

theorem wholeDigits_single {c : Char} (h : PartialNumber.isDigit c = true) : WholeDigits [c] := by
  refine ⟨digits_single h, fun hzero => ?_⟩
  obtain rfl := Option.some.inj hzero
  rfl

-- ---------------------------------------------------------------------------
-- Integers
-- ---------------------------------------------------------------------------

theorem SpellsNumber.unique {l l' : NumberLiteral} {cs : List Char} (h : SpellsNumber l cs)
    (h' : SpellsNumber l' cs) : l = l' := by
  obtain ⟨phase, -, hbegin⟩ := PartialNumber.begin?_number h
  obtain ⟨phase', -, hbegin'⟩ := PartialNumber.begin?_number h'
  rw [hbegin] at hbegin'
  exact (PartialNumber.mk.inj (Option.some.inj hbegin')).2

def integerLiteral (n : Int) : NumberLiteral := ⟨n < 0, decimalDigits n.natAbs, none, none⟩

theorem integer_integerLiteral (n : Int) : (integerLiteral n).integer = n := by
  simp only [NumberLiteral.integer, integerLiteral, digitsValue_decimalDigits, decide_eq_true_eq]
  split <;> omega

theorem spellsNumber_integerDigits (n : Int) :
    SpellsNumber (integerLiteral n) (Decimal.integerDigits n) := by
  have hspells := @PartialNumber.spellsNumber_parts (n < 0) _ _ _ _ _
    (wholeDigits_decimalDigits n.natAbs) .none .none
  rw [List.append_nil, List.append_nil] at hspells
  unfold Decimal.integerDigits integerLiteral
  split
  · rename_i hn
    simpa [PartialNumber.signText, hn] using hspells
  · rename_i hn
    simpa [PartialNumber.signText, hn] using hspells

theorem readsAs_integerDigits {n : Int64} {l : NumberLiteral} {t : Tree}
    (h : SpellsNumber l (Decimal.integerDigits n.toInt)) : l.ReadsAs t ↔ t = .integer n := by
  obtain rfl := h.unique (spellsNumber_integerDigits n.toInt)
  have hinteger := integer_integerLiteral n.toInt
  have hlower := n.minValue_le_toInt
  have hupper := n.toInt_le
  have hsize : Int64.maxValue.toInt < UInt64.size := by decide
  have hsign : (integerLiteral n.toInt).negative = true → n.toInt < 0 := of_decide_eq_true
  constructor
  · rintro (_ | ⟨hbeyond, -⟩)
    · rw [hinteger, Int64.ofInt_toInt]
    · rcases hbeyond rfl with h | h | ⟨hneg, h⟩
      · omega
      · omega
      · have := hsign hneg
        omega
  · rintro rfl
    have hreads : (integerLiteral n.toInt).ReadsAs
        (.integer (Int64.ofInt (integerLiteral n.toInt).integer)) := by
      refine .integer rfl ?_ ?_ fun hneg => ?_
      · omega
      · omega
      · have := hsign hneg
        omega
    rwa [hinteger, Int64.ofInt_toInt] at hreads

-- ---------------------------------------------------------------------------
-- Notations
-- ---------------------------------------------------------------------------

theorem spellsExponent_integerDigits (n : Int) (signed : Bool) :
    ∃ e, SpellsExponent (some e)
      ('e' :: (if signed && 0 ≤ n then ['+'] else []) ++ Decimal.integerDigits n) := by
  have hdigits := digits_decimalDigits n.natAbs
  unfold Decimal.integerDigits
  by_cases hn : n < 0
  · have hle : ¬0 ≤ n := Int.not_le.mpr hn
    simp only [hn, hle, decide_false, Bool.and_false, Bool.false_eq_true, if_false, if_true]
    exact ⟨_, .minus rfl hdigits⟩
  · have hle : 0 ≤ n := Int.not_lt.mp hn
    simp only [hn, hle, decide_true, Bool.and_true, if_false]
    cases signed with
    | true => exact ⟨_, .plus rfl hdigits⟩
    | false => exact ⟨_, .unsigned rfl hdigits⟩

theorem exists_spellsNumber_scientific (d : Decimal) (signed negative : Bool) :
    ∃ l, SpellsNumber l (PartialNumber.signText negative ++ d.scientific signed) ∧
      l.isWhole = false := by
  obtain ⟨e, hexponent⟩ := spellsExponent_integerDigits d.leading signed
  obtain ⟨hne, hdigits⟩ := digits_decimalDigits d.coefficient
  unfold Decimal.scientific Decimal.digits
  cases hds : decimalDigits d.coefficient with
  | nil => exact absurd hds hne
  | cons c ds =>
    rw [hds] at hdigits
    obtain ⟨hc, hds⟩ := List.forall_mem_cons.mp hdigits
    cases ds with
    | nil =>
      refine ⟨⟨negative, [c], none, some e⟩, ?_, rfl⟩
      simpa using PartialNumber.spellsNumber_parts (wholeDigits_single hc) .none hexponent
    | cons c' ds =>
      refine ⟨⟨negative, [c], some (c' :: ds), some e⟩, ?_, rfl⟩
      have hfraction : Digits (c' :: ds) := ⟨List.cons_ne_nil _ _, hds⟩
      simpa using
        PartialNumber.spellsNumber_parts (wholeDigits_single hc) (.some hfraction) hexponent

theorem Digits.append {cs ds : List Char} (h : Digits cs)
    (h' : ∀ c ∈ ds, PartialNumber.isDigit c = true) : Digits (cs ++ ds) := by
  refine ⟨by simp [h.1], fun c hc => ?_⟩
  rcases List.mem_append.mp hc with hc | hc
  · exact h.2 c hc
  · exact h' c hc

theorem wholeDigits_zeros {n zs : Nat} (h : n ≠ 0 ∨ zs = 0) :
    WholeDigits (decimalDigits n ++ zeros zs) := by
  have hdigits := digits_decimalDigits n
  rcases h with hn | rfl
  · refine ⟨hdigits.append isDigit_zeros, fun hzero => ?_⟩
    rw [List.head?_append_of_ne_nil _ hdigits.1] at hzero
    exact absurd hzero (decimalDigits_head hn)
  · rw [zeros, List.replicate_zero, List.append_nil]
    exact wholeDigits_decimalDigits n

theorem wholeDigits_take {n places : Nat} (hplaces : 0 < places)
    (h : places < (decimalDigits n).length) :
    WholeDigits ((decimalDigits n).take ((decimalDigits n).length - places)) := by
  have hpos : (decimalDigits n).length - places ≠ 0 := by omega
  have hn : n ≠ 0 := by
    rintro rfl
    exact absurd hplaces (Nat.not_lt.mpr (Nat.le_of_lt_succ h))
  refine ⟨⟨?_, fun c hc => (digits_decimalDigits n).2 c (List.mem_of_mem_take hc)⟩, fun hzero => ?_⟩
  · simp [hpos, (digits_decimalDigits n).1]
  · rw [List.head?_take, if_neg hpos] at hzero
    exact absurd hzero (decimalDigits_head hn)

theorem Digits.drop {cs : List Char} (h : Digits cs) {places : Nat} (hplaces : 0 < places) :
    Digits (cs.drop (cs.length - places)) := by
  have hlength : 0 < cs.length := List.length_pos_iff.mpr h.1
  refine ⟨fun hnil => ?_, fun c hc => h.2 c (List.mem_of_mem_drop hc)⟩
  rw [List.drop_eq_nil_iff] at hnil
  omega

theorem exists_positional {d : Decimal} (h : d.coefficient ≠ 0 ∨ d.exponent ≤ 0) :
    ∃ whole fraction, WholeDigits whole ∧ Digits fraction ∧
      d.positional true = whole ++ '.' :: fraction := by
  have hdigits := digits_decimalDigits d.coefficient
  unfold Decimal.positional Decimal.digits
  by_cases hexponent : 0 ≤ d.exponent
  · have hwhole : d.coefficient ≠ 0 ∨ d.exponent.toNat = 0 := h.imp_right (by omega)
    refine ⟨_, ['0'], wholeDigits_zeros hwhole, digits_single rfl, ?_⟩
    simp [hexponent]
  · simp only [hexponent, if_false]
    have hplaces : 0 < (-d.exponent).toNat := by omega
    generalize (-d.exponent).toNat = places at hplaces
    by_cases hlength : places < (decimalDigits d.coefficient).length
    · have hpadding : places + 1 - (decimalDigits d.coefficient).length = 0 := by omega
      rw [hpadding, zeros, List.replicate_zero, List.nil_append]
      exact ⟨_, _, wholeDigits_take hplaces hlength, hdigits.drop hplaces, rfl⟩
    · -- The zeros in front leave one digit before the point.
      obtain ⟨padding, hpadding⟩ : ∃ padding,
          places + 1 - (decimalDigits d.coefficient).length = padding + 1 :=
        Nat.exists_eq_add_one.mpr (by omega)
      have hpadded : Digits ('0' :: zeros padding ++ decimalDigits d.coefficient) := by
        refine Digits.append ⟨List.cons_ne_nil _ _, ?_⟩ hdigits.2
        exact List.forall_mem_cons.mpr ⟨rfl, isDigit_zeros⟩
      have hplace : ('0' :: zeros padding ++ decimalDigits d.coefficient).length - places = 1 := by
        simp [zeros]
        omega
      have hfraction := hpadded.drop hplaces
      rw [hplace] at hfraction
      have hzeros : zeros (padding + 1) = '0' :: zeros padding := rfl
      rw [hpadding, hzeros, hplace]
      exact ⟨_, _, PartialNumber.wholeDigits_zero, hfraction, rfl⟩

theorem exists_spellsNumber_positional {d : Decimal} (h : d.coefficient ≠ 0 ∨ d.exponent ≤ 0)
    (negative : Bool) :
    ∃ l, SpellsNumber l (PartialNumber.signText negative ++ d.positional true) ∧
      l.isWhole = false := by
  obtain ⟨whole, fraction, hwhole, hfraction, htext⟩ := exists_positional h
  refine ⟨⟨negative, whole, some fraction, none⟩, ?_, rfl⟩
  rw [htext]
  simpa using PartialNumber.spellsNumber_parts hwhole (.some hfraction) .none

end Json

-- ---------------------------------------------------------------------------
-- Reals
-- ---------------------------------------------------------------------------

theorem RoundingInterval.multiple?_ne_zero {i : RoundingInterval} {tie : Tie} {step n : Nat}
    (hi : 0 < i.lower) (h : i.multiple? tie step = some n) : n ≠ 0 := by
  have hcontains : i.contains 0 = false := by
    simp only [contains]
    split
    · simp [Nat.not_le.mpr hi]
    · simp
  -- Zero is outside the interval, so the multiple below is not zero if it is inside.
  have hbelow : i.contains (i.value / step * step) = true → i.value / step ≠ 0 := by
    intro hin hzero
    rw [hzero, Nat.zero_mul, hcontains] at hin
    cases hin
  have habove : i.value / step + 1 ≠ 0 := Nat.succ_ne_zero _
  unfold multiple? at h
  dsimp only at h
  split at h
  · rename_i hin _
    have hne := hbelow hin
    split at h
    · exact Option.some.inj h ▸ hne
    split at h
    · exact Option.some.inj h ▸ habove
    split at h
    · exact Option.some.inj h ▸ habove
    · split at h
      · exact Option.some.inj h ▸ hne
      · exact Option.some.inj h ▸ habove
  · rename_i hin _
    exact Option.some.inj h ▸ hbelow hin
  · exact Option.some.inj h ▸ habove
  · cases h

namespace Binary

variable {F : BinaryFormat} {x : Binary F}

theorem le_units (hx : x.isZero = false) : Nat.pow 2 x.exponent ≤ x.units := by
  have hmagnitude : x.magnitude ≠ 0 := by simpa [isZero] using hx
  have hsignificand : 0 < x.significand := by
    have hbound : x.magnitude / F.hidden * F.hidden ≤ x.magnitude := Nat.div_mul_le_self _ _
    have hhidden := F.hidden_pos
    unfold significand exponent
    rw [Nat.sub_mul, Nat.one_mul]
    omega
  exact Nat.le_mul_of_pos_left _ hsignificand

theorem interval_lower_pos (hx : x.isZero = false) : 0 < x.interval.lower := by
  have hunits := le_units hx
  have hgap : 0 < Nat.pow 2 x.exponent := Nat.two_pow_pos _
  unfold interval
  dsimp only
  split <;> omega

theorem onGrid?_coefficient {tie : Tie} {k : Int} {d : Decimal} (hx : x.isZero = false)
    (h : x.onGrid? tie k = some d) : d.coefficient ≠ 0 := by
  have hlower := interval_lower_pos hx
  unfold onGrid? at h
  obtain ⟨c, hc, rfl⟩ := Option.map_eq_some_iff.mp h
  split at hc
  · exact RoundingInterval.multiple?_ne_zero hlower hc
  · exact RoundingInterval.multiple?_ne_zero (Nat.mul_pos hlower (Nat.pow_pos (by decide))) hc

theorem shortest_coefficient (tie : Tie) (hx : x.isZero = false) :
    (x.shortest tie).coefficient ≠ 0 ∨ (x.shortest tie).exponent ≤ 0 := by
  unfold shortest
  cases h : (List.range 24).findSome? fun (n : Nat) => x.onGrid? tie (x.coarsest - n) with
  | none => exact .inr (Int.le_refl 0)
  | some d =>
    obtain ⟨n, -, hn⟩ := List.exists_of_findSome?_eq_some h
    exact .inl (onGrid?_coefficient hx hn)

end Binary

namespace Json

/-- Where whole numbers are written with a point, what is written for a finite number is no integer
by its form. -/
theorem exists_spellsNumber_text {F : BinaryFormat} (style : NumberStyle)
    (hpoint : style.point = true) {x : Binary F} (hx : x.isFinite = true) :
    ∃ l, SpellsNumber l (x.text style) ∧ l.isWhole = false := by
  have hnan : x.isNaN = false := by
    rw [Binary.isFinite, decide_eq_true_eq] at hx
    exact decide_eq_false (Nat.not_lt.mpr (Nat.le_of_lt hx))
  have htext : x.text style = PartialNumber.signText x.negative ++ x.unsignedText style := by
    simp only [Binary.text, hnan, hx, Bool.false_eq_true, if_false, if_true]
    cases x.negative <;> rfl
  rw [htext, Binary.unsignedText, hpoint]
  by_cases hzero : x.isZero = true
  · rw [if_pos hzero, if_pos rfl]
    refine ⟨⟨x.negative, ['0'], some ['0'], none⟩, ?_, rfl⟩
    simpa using PartialNumber.spellsNumber_parts PartialNumber.wholeDigits_zero
      (.some (digits_single rfl)) .none
  · rw [if_neg hzero]
    dsimp only
    split
    · exact exists_spellsNumber_scientific _ _ _
    · exact exists_spellsNumber_positional
        (Binary.shortest_coefficient style.tie (Bool.eq_false_iff.mpr hzero)) _

end Json

end SolverConfig
