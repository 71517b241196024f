import SolverConfig.Proofs.Agreement
import SolverConfig.Proofs.Alike

/-!
# Values of trees that are alike

Trees that are alike convert to equal values, or fail to convert for the same reason.
-/

namespace SolverConfig

/-- Errors of one variant about one thing. If `exact`, they are the same save for the unknown field
that is named. -/
inductive ConfigError.Alike (exact : Prop) : ConfigError → ConfigError → Prop
  | refl (e : ConfigError) : Alike exact e e
  | mismatch {subject : Subject} {expected found found' : String}
      (text : exact → found = found') :
      Alike exact (.typeMismatch subject expected found) (.typeMismatch subject expected found')
  | unknownField {c : Component} {key key' : String} (left : c.knows key = false)
      (right : c.knows key' = false) :
      Alike exact (.unknownField c key) (.unknownField c key')

theorem ConfigError.Alike.inField {exact : Prop} {e e' : ConfigError} (h : e.Alike exact e')
    (name : String) : (e.inField name).Alike exact (e'.inField name) := by
  cases h with
  | refl e => exact .refl _
  | @mismatch subject _ _ _ text => cases subject <;> exact .mismatch text
  | unknownField left right => exact .unknownField left right

-- ---------------------------------------------------------------------------
-- Zeros
-- ---------------------------------------------------------------------------

namespace Binary

variable {F : BinaryFormat}

theorem eq_zero_of_isZero {x : Binary F} (h : x.isZero = true) : x = zero x.negative := by
  obtain ⟨negative, magnitude, hm⟩ := x
  obtain rfl : magnitude = 0 := beq_iff_eq.mp h
  simp [zero, ofMagnitude]

theorem magnitude_zero (s : Bool) : (zero s : Binary F).magnitude = 0 := Nat.zero_min _

theorem same_zeros (s s' : Bool) : (zero s : Binary F).same (zero s') = true := by
  have hzero : ∀ s, (zero s : Binary F).isZero = true := fun s =>
    beq_iff_eq.mpr (magnitude_zero s)
  simp only [same, isNaN_zero, hzero, Bool.not_false, Bool.and_self, Bool.or_true]

theorem isFinite_zero (hF : 0 < F.infinity) (s : Bool) : (zero s : Binary F).isFinite = true := by
  rw [isFinite, magnitude_zero]
  exact decide_eq_true hF

theorem units_zero (s : Bool) : (zero s : Binary F).units = 0 := by
  rw [units, significand, magnitude_zero, Nat.zero_sub, Nat.zero_mul]

theorem ofRatio_zero (s : Bool) {den : Nat} (h : 0 < den) :
    (ofRatio s 0 den : Binary F) = zero s := by
  have hspacing : spacing F 0 den = 0 := by
    have hpos : 0 < den * Nat.pow 2 (0 - 1 + F.precision) :=
      Nat.mul_pos h (Nat.two_pow_pos _)
    simp only [spacing, Nat.log2_zero, Nat.zero_sub, if_pos hpos]
  have hquotient : roundQuotient 0 (den * Nat.pow 2 0) = 0 := by
    simp [roundQuotient, h]
  rw [ofRatio, Nat.zero_mul, roundUnits, hspacing, hquotient, Nat.zero_mul]
  rfl

theorem convert_zero {G : BinaryFormat} (hF : 0 < F.infinity) (s : Bool) :
    (zero s : Binary F).convert G = zero s := by
  rw [convert, isNaN_zero, isFinite_zero hF, if_neg Bool.false_ne_true, if_pos rfl, units_zero]
  exact ofRatio_zero s (Nat.two_pow_pos _)

end Binary

theorem Precision.infinity_pos (p : Precision) : 0 < p.format.infinity := by
  cases p <;> decide

theorem Precision.ofDouble_of_isZero (p : Precision) {x : Double} (h : x.isZero = true) :
    p.ofDouble x = .zero x.negative := by
  rw [Binary.eq_zero_of_isZero h]
  cases p with
  | double => rfl
  | single =>
    rw [Precision.ofDouble]
    exact Binary.convert_zero (Precision.infinity_pos .double) _

-- ---------------------------------------------------------------------------
-- Conversion
-- ---------------------------------------------------------------------------

theorem isEqv_iff {α : Type} {r : α → α → Bool} {as bs : List α} :
    as.isEqv bs r = true ↔ List.Forall₂ (fun a b => r a b = true) as bs := by
  induction as generalizing bs with
  | nil => cases bs <;> simp
  | cons a rest ih => cases bs <;> simp [List.isEqv, ih]

section
variable {exact : Prop} {t u : Tree} (h : t.Alike exact u)
include h

theorem Tree.Alike.describe (he : exact) : t.describe = u.describe := by
  cases h.parts with
  | leaf _ _ _ => rfl
  | zeros _ _ hne => exact absurd he hne
  | array each => rw [Tree.describe, Tree.describe, each.length_eq]
  | map _ => rfl

theorem Tree.Alike.mismatch (subject : Subject) (expected : String) :
    (t.mismatch subject expected).Alike exact (u.mismatch subject expected) :=
  .mismatch h.describe

theorem Tree.Alike.asText? : t.asText? = u.asText? := by
  cases h.parts <;> rfl

theorem Numeric.convert_alike (n : Numeric) :
    Agree (ConfigError.Alike exact) (fun v w => n.same v w = true) (n.convert t) (n.convert u) := by
  cases h.parts with
  | leaf _ _ hn => exact .refl .refl fun v hv => (Numeric.same_convert hv).mpr hn
  | array _ | map _ => cases n <;> exact .error (h.mismatch _ _)
  | @zeros x y hx hy _ =>
    cases n with
    | integer type => exact .error (h.mismatch _ _)
    | real p =>
      have hfinite : ∀ s, (Binary.zero s : Binary p.format).isFinite = true :=
        Binary.isFinite_zero p.infinity_pos
      simp only [Numeric.convert, Tree.asReal?, p.ofDouble_of_isZero hx, p.ofDouble_of_isZero hy,
        hfinite, Bool.not_true, Bool.and_false, Bool.false_eq_true, if_false]
      exact .ok (Binary.same_zeros _ _)

theorem Target.convert_complex_alike (n : Numeric) :
    Agree (ConfigError.Alike exact) (fun v w => (Target.complex n).same v w = true)
      ((Target.complex n).convert t) ((Target.complex n).convert u) := by
  cases h.parts with
  | leaf _ _ hn => exact .refl .refl fun v hv => (Target.same_convert_complex hv).mpr hn
  | map _ => exact .error (h.mismatch _ _)
  | @zeros x y _ _ _ =>
    have hre := Numeric.convert_alike h n
    simp only [Target.convert]
    generalize n.convert (.real x) = v, n.convert (.real y) = w at hre
    cases hre with
    | error he => exact .error he
    | ok hre => exact .ok (Bool.and_eq_true_iff.mpr ⟨hre, n.same_zero⟩)
  | array each =>
    rcases each with _ | @⟨re, re', _, _, hre, _ | @⟨im, im', _, _, him, _ | _⟩⟩
    · exact .error (h.mismatch _ _)
    · exact .error (h.mismatch _ _)
    · simp only [Target.convert]
      replace hre := Numeric.convert_alike hre n
      replace him := Numeric.convert_alike him n
      generalize n.convert re = v, n.convert re' = w at hre
      generalize n.convert im = v', n.convert im' = w' at him
      cases hre with
      | error he => exact .error he
      | ok hre =>
        cases him with
        | error he => exact .error he
        | ok him => exact .ok (Bool.and_eq_true_iff.mpr ⟨hre, him⟩)
    · exact .error (h.mismatch _ _)

theorem Target.convert_alike (target : Target) :
    Agree (ConfigError.Alike exact) (fun v w => target.same v w = true) (target.convert t)
      (target.convert u) := by
  induction target generalizing t u with
  | number n => exact Numeric.convert_alike h n
  | complex n => exact Target.convert_complex_alike h n
  | list target ih =>
    cases h.parts with
    | leaf _ _ hn => exact .refl .refl fun v hv => (Target.same_convert hv).mpr hn
    | zeros _ _ _ | map _ => exact .error (h.mismatch _ _)
    | array each =>
      refine (Agree.mapM (each.imp fun _ _ hitem => ih hitem)).imp fun vs ws hvs => ?_
      exact isEqv_iff.mpr hvs
  | _ =>
    cases h.parts with
    | leaf _ _ hn => exact .refl .refl fun v hv => (Target.same_convert hv).mpr hn
    | _ => exact .error (h.mismatch _ _)

end

end SolverConfig
