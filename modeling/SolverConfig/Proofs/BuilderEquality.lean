import SolverConfig.Proofs.Binding
import SolverConfig.Proofs.Reordering
import SolverConfig.Proofs.TreeEquality

/-!
# Equality of builders

Equal builders have the same form at every depth: both are bound and one object, or both are unbound
with one signature and with parameters that are equal one by one. Such equality is symmetric and
transitive, and a builder differs from itself only if a real in it is not a number.
-/

namespace SolverConfig

-- ---------------------------------------------------------------------------
-- Equal values
-- ---------------------------------------------------------------------------

def Numeric.Equal : (n : Numeric) → n.Carrier → n.Carrier → Prop
  | .integer _, m, n => m = n
  | .real _, x, y => x.Equal y

def Numeric.isNaN : (n : Numeric) → n.Carrier → Bool
  | .integer _, _ => false
  | .real _, x => x.isNaN

namespace Target

/-- Values that are equal: reals as numbers, complex numbers in both parts, lists element by
element, and all others if they are the same. -/
def Equal : (t : Target) → t.Carrier → t.Carrier → Prop
  | .number n, x, y => n.Equal x y
  | .complex n, x, y => n.Equal x.re y.re ∧ n.Equal x.im y.im
  | .flag, a, b => a = b
  | .text, s, t => s = t
  | .duration, m, n => m = n
  | .guess, a, b => a = b
  | .algorithm, a, b => a = b
  | .baseline, a, b => a = b
  | .list t, xs, ys => List.Forall₂ t.Equal xs ys

def HoldsNaN : (t : Target) → t.Carrier → Prop
  | .number n, x => n.isNaN x = true
  | .complex n, x => n.isNaN x.re = true ∨ n.isNaN x.im = true
  | .list t, xs => ∃ x ∈ xs, t.HoldsNaN x
  | .flag, _ | .text, _ | .duration, _ | .guess, _ | .algorithm, _ | .baseline, _ => False

end Target

namespace Binary

variable {F : BinaryFormat} {x y z : Binary F}

theorem Equal.symm (h : x.Equal y) : y.Equal x := by
  rw [← same_iff_equal, same_comm, same_iff_equal]
  exact h

theorem Equal.trans (h : x.Equal y) (h' : y.Equal z) : x.Equal z := by
  cases h with
  | refl _ => exact h'
  | zeros hx hy =>
    cases h' with
    | refl _ => exact .zeros hx hy
    | zeros _ hz => exact .zeros hx hz

end Binary

section
variable {n : Numeric} {x y z : n.Carrier}

theorem Numeric.same_iff_equal : n.same x y = true ↔ n.Equal x y := by
  cases n with
  | integer t => exact beq_iff_eq
  | real p => exact Binary.same_iff_equal

theorem Numeric.Equal.symm (h : n.Equal x y) : n.Equal y x := by
  cases n with
  | integer t => exact Eq.symm h
  | real p => exact Binary.Equal.symm h

theorem Numeric.Equal.trans (h : n.Equal x y) (h' : n.Equal y z) : n.Equal x z := by
  cases n with
  | integer t => exact Eq.trans h h'
  | real p => exact Binary.Equal.trans h h'

theorem Numeric.equal_self : n.Equal x x ↔ ¬n.isNaN x = true := by
  cases n with
  | integer t => simp [Equal, isNaN]
  | real p => simp [Equal, isNaN, ← Binary.same_iff_equal, Binary.same_self]

end

section
variable {t : Target} {x y z : t.Carrier}

theorem Target.same_iff_equal : t.same x y = true ↔ t.Equal x y := by
  induction t with
  | number n => exact Numeric.same_iff_equal
  | complex n => simp [Target.same, Target.Equal, Numeric.same_iff_equal]
  | list t ih => simp [Target.same, Target.Equal, isEqv_iff, ih]
  | _ => exact beq_iff_eq

theorem Target.Equal.symm (h : t.Equal x y) : t.Equal y x := by
  induction t with
  | number n => exact Numeric.Equal.symm h
  | complex n => exact ⟨h.1.symm, h.2.symm⟩
  | list t ih => exact List.Forall₂.flip (List.Forall₂.imp (fun _ _ => ih) h)
  | _ => exact Eq.symm h

theorem Target.Equal.trans (h : t.Equal x y) (h' : t.Equal y z) : t.Equal x z := by
  induction t with
  | number n => exact Numeric.Equal.trans h h'
  | complex n => exact ⟨h.1.trans h'.1, h.2.trans h'.2⟩
  | list t ih => exact forall₂_trans h h' fun _ _ _ _ => ih
  | _ => exact Eq.trans h h'

theorem Target.equal_self : t.Equal x x ↔ ¬t.HoldsNaN x := by
  induction t with
  | number n => exact Numeric.equal_self
  | complex n => simp [Target.Equal, Target.HoldsNaN, Numeric.equal_self]
  | list t ih => simp [Target.Equal, Target.HoldsNaN, List.forall₂_same, ih]
  | _ => simp [Target.Equal, Target.HoldsNaN]

end

-- ---------------------------------------------------------------------------
-- What equality means
-- ---------------------------------------------------------------------------

/-- Parameters of one form: both absent, equal values, one operator, or related components, as many
of them in the same order. -/
inductive Param.Rel (R : Deferred → Deferred → Prop) : Param Deferred → Param Deferred → Prop
  | absent : Rel R .absent .absent
  | value {t : Target} {v w : t.Carrier} (equal : t.Equal v w) : Rel R (.value t v) (.value t w)
  | factory {d d' : Deferred} (component : R d d') : Rel R (.factory d) (.factory d')
  | factories {ds ds' : List Deferred} (each : List.Forall₂ R ds ds') :
      Rel R (.factories ds) (.factories ds')
  | operator {o : Operator} : Rel R (.operator o) (.operator o)

namespace Deferred

/-- Components of one form at every depth: unbound ones of one signature with parameters that are
equal one by one, and factories that are the same object. -/
inductive Equal : Deferred → Deferred → Prop
  | unbound {s : Signature} {params params' : Params Deferred}
      (each : List.Forall₂ (Keyed (Param.Rel Equal)) params params') :
      Equal (.unbound s params) (.unbound s params')
  | bound {f : Factory} : Equal (.bound f) (.bound f)

/-- Components in which a real of a builder is not a number, at any depth. What is bound is left
out. -/
inductive HoldsNaN : Deferred → Prop
  | value {s : Signature} {params : Params Deferred} {name : String} {t : Target} {v : t.Carrier}
      (mem : (name, Param.value t v) ∈ params) (nan : t.HoldsNaN v) : HoldsNaN (.unbound s params)
  | nested {s : Signature} {params : Params Deferred} {name : String} {p : Param Deferred}
      {d : Deferred} (mem : (name, p) ∈ params) (defers : d ∈ p.components) (nan : HoldsNaN d) :
      HoldsNaN (.unbound s params)

end Deferred

-- ---------------------------------------------------------------------------
-- Related parameters
-- ---------------------------------------------------------------------------

namespace Param

variable {R S T : Deferred → Deferred → Prop} {p q r : Param Deferred}

theorem Rel.imp (h : p.Rel R q) (hS : ∀ d ∈ p.components, ∀ e, R d e → S d e) : p.Rel S q := by
  cases h with
  | absent => exact .absent
  | value h => exact .value h
  | factory h => exact .factory (hS _ (List.mem_singleton_self _) _ h)
  | factories h => exact .factories (forall₂_imp hS h)
  | operator => exact .operator

theorem Rel.symm (h : p.Rel R q) (hS : ∀ d ∈ p.components, ∀ e, R d e → S e d) : q.Rel S p := by
  cases h with
  | absent => exact .absent
  | value h => exact .value h.symm
  | factory h => exact .factory (hS _ (List.mem_singleton_self _) _ h)
  | factories h => exact .factories (forall₂_imp hS h).flip
  | operator => exact .operator

theorem Rel.trans (h : p.Rel R q) (h' : q.Rel S r)
    (hT : ∀ d ∈ p.components, ∀ e f, R d e → S e f → T d f) : p.Rel T r := by
  cases h with
  | absent =>
    cases h'
    exact .absent
  | value h =>
    cases h' with
    | value h' => exact .value (h.trans h')
  | factory h =>
    cases h' with
    | factory h' => exact .factory (hT _ (List.mem_singleton_self _) _ _ h h')
  | factories h =>
    cases h' with
    | factories h' => exact .factories (forall₂_trans h h' hT)
  | operator =>
    cases h'
    exact .operator

theorem rel_self : p.Rel R p ↔
    (∀ t v, p = .value t v → ¬t.HoldsNaN v) ∧ ∀ d ∈ p.components, R d d := by
  constructor
  · intro h
    cases h with
    | absent => simp [components]
    | value h =>
      refine ⟨?_, by simp [components]⟩
      rintro t v ⟨⟩
      exact Target.equal_self.mp h
    | factory h => simpa [components] using h
    | factories h => simpa [components] using List.forall₂_same.mp h
    | operator => simp [components]
  · rintro ⟨hvalue, hdeferred⟩
    cases p with
    | absent => exact .absent
    | value t v => exact .value (Target.equal_self.mpr (hvalue t v rfl))
    | factory d => exact .factory (hdeferred d (List.mem_singleton_self d))
    | factories ds => exact .factories (List.forall₂_same.mpr hdeferred)
    | operator o => exact .operator

theorem same_iff_rel : p.same q = true ↔ p.Rel (fun d e => d.same e = true) q := by
  -- Parameters of two forms are never equal, so only pairs of one form are left.
  constructor
  · intro h
    cases p with
    | absent =>
      cases q with
      | absent => exact .absent
      | _ => cases h
    | value t v =>
      cases q with
      | value u w =>
        rw [Param.same, Target.sameAcross] at h
        split at h
        · subst u
          exact .value (Target.same_iff_equal.mp h)
        · cases h
      | _ => cases h
    | factory d =>
      cases q with
      | factory e => exact .factory h
      | _ => cases h
    | factories ds =>
      cases q with
      | factories es => exact .factories (Deferred.sameAll_iff.mp h)
      | _ => cases h
    | operator o =>
      cases q with
      | operator o' =>
        obtain rfl : o = o' := beq_iff_eq.mp h
        exact .operator
      | _ => cases h
  · intro h
    cases h with
    | absent => rfl
    | value h =>
      rw [Param.same, Target.sameAcross_self]
      exact Target.same_iff_equal.mpr h
    | factory h => exact h
    | factories h => exact Deferred.sameAll_iff.mpr h
    | operator => exact beq_self_eq_true _

end Param

-- ---------------------------------------------------------------------------
-- Laws of equality
-- ---------------------------------------------------------------------------

namespace Deferred

variable {a b c : Deferred} {s s' : Signature} {params params' : Params Deferred}

theorem same_unbound_iff : (unbound s params).same (unbound s' params') = true ↔
    s = s' ∧ List.Forall₂ (Keyed (Param.Rel fun d e => d.same e = true)) params params' := by
  have hkeyed : ∀ entry other : String × Param Deferred,
      (entry.1 = other.1 ∧ entry.2.same other.2 = true) ↔
        Keyed (Param.Rel fun d e => d.same e = true) entry other := by
    intro entry other
    rw [Keyed.iff, Param.same_iff_rel]
  rw [Deferred.same, Bool.and_eq_true, beq_iff_eq, Param.sameAll_iff, ParamsRel]
  simp only [hkeyed]

theorem same_iff_equal : a.same b = true ↔ a.Equal b := by
  induction a using Deferred.induction generalizing b with
  | bound f =>
    cases b with
    | unbound s params => exact iff_of_false nofun nofun
    | bound g =>
      constructor
      · intro h
        obtain rfl : f = g := beq_iff_eq.mp h
        exact .bound
      · rintro ⟨⟩
        exact Deferred.same_bound
  | unbound s params ih =>
    cases b with
    | bound g => exact iff_of_false nofun nofun
    | unbound s' params' =>
      rw [same_unbound_iff]
      constructor
      · rintro ⟨rfl, each⟩
        apply Equal.unbound
        exact Keyed.forall₂_imp each fun entry he _ h => h.imp fun d hd _ => (ih entry he d hd).mp
      · rintro ⟨each⟩
        refine ⟨rfl, ?_⟩
        exact Keyed.forall₂_imp each fun entry he _ h => h.imp fun d hd _ => (ih entry he d hd).mpr

theorem Equal.symm (h : a.Equal b) : b.Equal a := by
  induction a using Deferred.induction generalizing b with
  | bound f =>
    cases h
    exact .bound
  | unbound s params ih =>
    cases h with
    | unbound each =>
      apply Equal.unbound
      exact Keyed.forall₂_symm each fun entry he _ h => h.symm fun d hd _ => ih entry he d hd

theorem Equal.trans (h : a.Equal b) (h' : b.Equal c) : a.Equal c := by
  induction a using Deferred.induction generalizing b c with
  | bound f =>
    cases h
    exact h'
  | unbound s params ih =>
    cases h with
    | unbound each =>
      cases h' with
      | unbound each' =>
        apply Equal.unbound
        exact Keyed.forall₂_trans each each' fun entry he _ _ h h' =>
          h.trans h' fun d hd _ _ => ih entry he d hd

theorem equal_self : a.Equal a ↔ ¬a.HoldsNaN := by
  induction a using Deferred.induction with
  | bound f => exact iff_of_true .bound nofun
  | unbound s params ih =>
    constructor
    · rintro ⟨each⟩ h
      have hrel : ∀ entry ∈ params, entry.2.Rel Equal entry.2 := by
        intro entry he
        exact (Keyed.iff.mp (List.forall₂_same.mp each entry he)).2
      cases h with
      | value hmem hn => exact (Param.rel_self.mp (hrel _ hmem)).1 _ _ rfl hn
      | nested hmem hd hn => exact (ih _ hmem _ hd).mp ((Param.rel_self.mp (hrel _ hmem)).2 _ hd) hn
    · intro h
      refine .unbound (List.forall₂_same.mpr fun entry he => Keyed.iff.mpr ⟨rfl, ?_⟩)
      refine Param.rel_self.mpr ⟨?_, fun d hd => (ih entry he d hd).mpr fun hn => ?_⟩
      · obtain ⟨name, p⟩ := entry
        rintro t v rfl hn
        exact h (.value he hn)
      · exact h (.nested he hd hn)

theorem Equal.isBound (h : a.Equal b) : a.isBound = b.isBound := by
  cases h <;> rfl

theorem Equal.signature (h : a.Equal b) : a.signature = b.signature := by
  cases h <;> rfl

end Deferred

/-- Builders are equal exactly if they have one form at every depth; equality is symmetric and
transitive, and a builder differs from itself only if a real in it is not a number. Equal builders
are both bound or both unbound, and of one family and one signature. -/
theorem same_builders {a b c : Deferred} :
    (a.same b = true ↔ a.Equal b) ∧ (a.same b = true → b.same a = true) ∧
      (a.same b = true → b.same c = true → a.same c = true) ∧
      (a.same a = true ↔ ¬a.HoldsNaN) ∧
      (a.same b = true → a.isBound = b.isBound) ∧
      (a.same b = true → a.family = b.family ∧ a.signature = b.signature) := by
  refine ⟨Deferred.same_iff_equal, ?_⟩
  simp only [Deferred.same_iff_equal]
  exact ⟨fun h => h.symm, fun h h' => h.trans h', Deferred.equal_self, fun h => h.isBound,
    fun h => ⟨congrArg Signature.family h.signature, h.signature⟩⟩

theorem same_builders_zeros :
    let time : Factory := .mk 3 (.reference 0) ⟨.time, none, none⟩ []
    let criterion (x : Double) : Deferred := .unbound ⟨.residualNorm, some .float64, none⟩
      [("reduction_factor", .value (.number (.real .double)) x)]
    let cg (x : Double) : Deferred := .unbound ⟨.cg, some .float64, none⟩
      [("criteria", .factories [criterion x, .bound time]), ("preconditioner", .absent)]
    (cg (.zero false)).same (cg (.zero true)) = true ∧
      (cg (.zero false)).Equal (cg (.zero true)) ∧
      (cg (.zero true)).same (cg (.zero false)) = true ∧
      (cg (.zero false)).same (cg (.zero false)) = true ∧
      (cg (.zero false)).signature = (cg (.zero true)).signature ∧ (cg .nan).HoldsNaN := by
  intro time criterion cg
  have hsame : (cg (.zero false)).same (cg (.zero true)) = true := rfl
  have hdiffers : (cg .nan).same (cg .nan) = false := rfl
  obtain ⟨hequal, hsymm, htrans, -, -, hsignature⟩ :=
    same_builders (a := cg (.zero false)) (b := cg (.zero true)) (c := cg (.zero false))
  obtain ⟨-, -, -, hself, -⟩ := same_builders (a := cg .nan) (b := cg .nan) (c := cg .nan)
  refine ⟨hsame, hequal.mp hsame, hsymm hsame, htrans hsame (hsymm hsame),
    (hsignature hsame).2, ?_⟩
  by_contra hn
  rw [hself.mpr hn] at hdiffers
  cases hdiffers

end SolverConfig
