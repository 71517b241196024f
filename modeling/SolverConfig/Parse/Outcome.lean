import SolverConfig.Error

/-!
# Outcomes

The result of a parse together with the warnings that were given on the way, whether it succeeded
or not.
-/

namespace SolverConfig

structure Warning where
  owner : Component
  field : String
  deriving DecidableEq

structure Outcome (α : Type) where
  warnings : List Warning
  result : Except ConfigError α

namespace Outcome

variable {α β γ : Type}

def ofExcept (r : Except ConfigError α) : Outcome α := ⟨[], r⟩

def warn (warnings : List Warning) : Outcome Unit := ⟨warnings, .ok ()⟩

protected def bind (o : Outcome α) (f : α → Outcome β) : Outcome β :=
  match o.result with
  | .ok a => ⟨o.warnings ++ (f a).warnings, (f a).result⟩
  | .error e => ⟨o.warnings, .error e⟩

instance : Monad Outcome where
  pure a := ofExcept (.ok a)
  bind := Outcome.bind

instance : MonadLift (Except ConfigError) Outcome where
  monadLift := ofExcept

@[ext] theorem ext {o p : Outcome α} (hw : o.warnings = p.warnings) (hr : o.result = p.result) :
    o = p := by
  cases o; cases p; simp_all

theorem bind_eq (o : Outcome α) (f : α → Outcome β) : o >>= f = o.bind f := rfl

@[simp] theorem ofExcept_ok_bind (a : α) (f : α → Outcome β) :
    (ofExcept (.ok a)).bind f = f a := by
  simp [Outcome.bind, ofExcept]

@[simp] theorem ofExcept_error_bind (e : ConfigError) (f : α → Outcome β) :
    (ofExcept (.error e)).bind f = ofExcept (.error e) := rfl

theorem bind_assoc (o : Outcome α) (f : α → Outcome β) (g : β → Outcome γ) :
    (o.bind f).bind g = o.bind fun a => (f a).bind g := by
  obtain ⟨w, r⟩ := o
  cases r with
  | error e => rfl
  | ok a =>
    cases h : (f a).result <;> simp [Outcome.bind, h]

@[simp] theorem result_pure (a : α) : (pure a : Outcome α).result = .ok a := rfl

@[simp] theorem result_ofExcept (r : Except ConfigError α) : (ofExcept r).result = r := rfl

@[simp] theorem result_lift (r : Except ConfigError α) : (liftM r : Outcome α).result = r := rfl

theorem bind_result_eq_ok {o : Outcome α} {f : α → Outcome β} {b : β} :
    (o.bind f).result = .ok b ↔ ∃ a, o.result = .ok a ∧ (f a).result = .ok b := by
  obtain ⟨w, r⟩ := o
  cases r <;> simp [Outcome.bind]

theorem bind_result_eq_error {o : Outcome α} {f : α → Outcome β} {e : ConfigError} :
    (o.bind f).result = .error e ↔
      o.result = .error e ∨ ∃ a, o.result = .ok a ∧ (f a).result = .error e := by
  obtain ⟨w, r⟩ := o
  cases r <;> simp [Outcome.bind]

end Outcome

end SolverConfig
