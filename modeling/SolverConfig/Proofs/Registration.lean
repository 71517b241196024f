import Mathlib.Data.List.Induction
import Mathlib.Data.List.Nodup
import SolverConfig.Proofs.Basic
import SolverConfig.Registry

/-!
# Registration

What a registry holds is decided by the calls that were made: under each name of each namespace,
what the first call for it registered. Later calls for the name are refused and change nothing.
-/

namespace SolverConfig

inductive Registration (β : Type) where
  | object (name : String) (o : Object)
  | builder (name : String) (b : β)

namespace Registration

variable {β : Type}

def space : Registration β → Namespace
  | .object _ _ => .object
  | .builder _ _ => .builder

def name : Registration β → String
  | .object name _ => name
  | .builder name _ => name

def SharesName (c d : Registration β) : Prop := c.space = d.space ∧ c.name = d.name

/-- Whether the name was used before, in the same namespace. -/
def Repeats (c : Registration β) (before : List (Registration β)) : Prop :=
  ∃ d ∈ before, d.SharesName c

/-- A call of a run that is the first to use its name. -/
def FirstIn (c : Registration β) (calls : List (Registration β)) : Prop :=
  ∃ before after, calls = before ++ c :: after ∧ ¬c.Repeats before

end Registration

namespace Registry

variable {β : Type}

def emplace (r : Registry β) : Registration β → Except ConfigError (Registry β)
  | .object name o => r.emplaceObject name o
  | .builder name b => r.emplaceBuilder name b

def after (r : Registry β) (c : Registration β) : Registry β :=
  match r.emplace c with
  | .ok r => r
  | .error _ => r

/-- The registry after calls that start from the empty one. -/
def run (calls : List (Registration β)) : Registry β := calls.foldl after empty

def Holds (r : Registry β) : Registration β → Prop
  | .object name o => r.objects.lookup name = some o
  | .builder name b => r.builders.lookup name = some b

end Registry

-- ---------------------------------------------------------------------------
-- Calls
-- ---------------------------------------------------------------------------

namespace Registration

variable {β : Type} {c d : Registration β} {calls : List (Registration β)}

theorem sharesName_object {name : String} {o : Object} :
    d.SharesName (.object name o) ↔ ∃ o', d = .object name o' := by
  cases d <;> simp [SharesName, space, Registration.name]

theorem sharesName_builder {name : String} {b : β} :
    d.SharesName (.builder name b) ↔ ∃ b', d = .builder name b' := by
  cases d <;> simp [SharesName, space, Registration.name]

theorem repeats_nil : ¬c.Repeats [] := nofun

theorem repeats_concat : c.Repeats (calls ++ [d]) ↔ c.Repeats calls ∨ d.SharesName c := by
  simp [Repeats, or_and_right, exists_or]

theorem firstIn_nil : ¬c.FirstIn [] := by
  rintro ⟨before, after, h, -⟩
  simp at h

theorem firstIn_concat : d.FirstIn (calls ++ [c]) ↔ d.FirstIn calls ∨ d = c ∧ ¬c.Repeats calls := by
  constructor
  · rintro ⟨before, after, h, hd⟩
    -- The first call stands before the last one or is the last one.
    rcases List.eq_nil_or_concat after with rfl | ⟨after, last, rfl⟩
    · obtain ⟨rfl, hc⟩ := List.append_inj' h rfl
      obtain rfl := (List.cons.inj hc).1
      exact .inr ⟨rfl, hd⟩
    · rw [List.concat_eq_append, ← List.cons_append, ← List.append_assoc] at h
      exact .inl ⟨before, after, (List.append_inj' h rfl).1, hd⟩
  · rintro (⟨before, after, rfl, hd⟩ | ⟨rfl, hd⟩)
    · exact ⟨before, after ++ [c], by simp, hd⟩
    · exact ⟨calls, [], rfl, hd⟩

theorem repeats_iff : c.Repeats calls ↔ ∃ d : Registration β, d.SharesName c ∧ d.FirstIn calls := by
  induction calls using List.reverseRecOn with
  | nil => simp [repeats_nil, firstIn_nil]
  | append_singleton calls last ih =>
    simp only [repeats_concat, firstIn_concat, and_or_left, exists_or, ← ih]
    constructor
    · rintro (h | h)
      · exact .inl h
      · by_cases hlast : last.Repeats calls
        · obtain ⟨d, hd, hshares⟩ := hlast
          exact .inl ⟨d, hd, hshares.1.trans h.1, hshares.2.trans h.2⟩
        · exact .inr ⟨last, h, rfl, hlast⟩
    · rintro (h | ⟨_, h, rfl, -⟩)
      · exact .inl h
      · exact .inr h

theorem forall_not_firstIn {name : String} :
    (∀ o, ¬(object name o).FirstIn calls) ↔ ∀ o, object name o ∉ calls := by
  constructor
  · intro h o ho
    obtain ⟨d, hshares, hd⟩ := repeats_iff.mp ⟨_, ho, rfl, rfl⟩
    obtain ⟨o', rfl⟩ := sharesName_object.mp hshares
    exact h o' hd
  · rintro h o ⟨before, after, rfl, -⟩
    exact h o (by simp)

end Registration

-- ---------------------------------------------------------------------------
-- One call
-- ---------------------------------------------------------------------------

namespace Registry

variable {β : Type} {r : Registry β} {c d : Registration β}

def Taken (r : Registry β) (c : Registration β) : Prop := ∃ d, d.SharesName c ∧ r.Holds d

def add (r : Registry β) : Registration β → Registry β
  | .object name o => { r with objects := r.objects ++ [(name, o)] }
  | .builder name b => { r with builders := r.builders ++ [(name, b)] }

theorem holds_empty : ¬(empty : Registry β).Holds c := by
  cases c <;> exact nofun

theorem taken_object {name : String} {o : Object} :
    r.Taken (.object name o) ↔ r.containsObject name = true := by
  simp only [Taken, Registration.sharesName_object, containsObject, Option.isSome_iff_exists]
  constructor
  · rintro ⟨_, ⟨o', rfl⟩, h⟩
    exact ⟨o', h⟩
  · rintro ⟨o', h⟩
    exact ⟨_, ⟨o', rfl⟩, h⟩

theorem taken_builder {name : String} {b : β} :
    r.Taken (.builder name b) ↔ r.containsBuilder name = true := by
  simp only [Taken, Registration.sharesName_builder, containsBuilder, Option.isSome_iff_exists]
  constructor
  · rintro ⟨_, ⟨b', rfl⟩, h⟩
    exact ⟨b', h⟩
  · rintro ⟨b', h⟩
    exact ⟨_, ⟨b', rfl⟩, h⟩

theorem emplace_of_taken (h : r.Taken c) :
    r.emplace c = .error (.duplicateName c.space c.name) := by
  cases c with
  | object name o => exact if_pos (taken_object.mp h)
  | builder name b => exact if_pos (taken_builder.mp h)

theorem emplace_of_not_taken (h : ¬r.Taken c) : r.emplace c = .ok (r.add c) := by
  cases c with
  | object name o => exact if_neg fun hc => h (taken_object.mpr hc)
  | builder name b => exact if_neg fun hc => h (taken_builder.mpr hc)

theorem after_of_taken (h : r.Taken c) : r.after c = r := by
  rw [after, emplace_of_taken h]

theorem after_of_not_taken (h : ¬r.Taken c) : r.after c = r.add c := by
  rw [after, emplace_of_not_taken h]

theorem holds_add (h : ¬r.Taken c) : (r.add c).Holds d ↔ r.Holds d ∨ d = c := by
  cases c with
  | object name o =>
    rw [taken_object, containsObject, Option.not_isSome_iff_eq_none] at h
    cases d with
    | object other p =>
      simp only [Holds, add, lookup_concat, Registration.object.injEq]
      exact or_congr_right (and_iff_right_of_imp fun hp => hp.1 ▸ h)
    | builder other p => simp [Holds, add]
  | builder name b =>
    rw [taken_builder, containsBuilder, Option.not_isSome_iff_eq_none] at h
    cases d with
    | object other p => simp [Holds, add]
    | builder other p =>
      simp only [Holds, add, lookup_concat, Registration.builder.injEq]
      exact or_congr_right (and_iff_right_of_imp fun hp => hp.1 ▸ h)

-- ---------------------------------------------------------------------------
-- Runs
-- ---------------------------------------------------------------------------

variable {calls : List (Registration β)}

theorem run_concat (calls : List (Registration β)) (c : Registration β) :
    run (calls ++ [c]) = (run calls).after c := List.foldl_concat ..

/-- Under a name stands what the first call for it registered. -/
theorem holds_run : (run calls).Holds c ↔ c.FirstIn calls := by
  induction calls using List.reverseRecOn generalizing c with
  | nil => exact iff_of_false holds_empty Registration.firstIn_nil
  | append_singleton calls last ih =>
    have htaken : (run calls).Taken last ↔ last.Repeats calls := by
      simp only [Taken, ih, Registration.repeats_iff]
    rw [run_concat, Registration.firstIn_concat, ← htaken]
    by_cases h : (run calls).Taken last
    · rw [after_of_taken h, ih]
      simp [h]
    · rw [after_of_not_taken h, holds_add h, ih]
      simp [h]

theorem taken_run : (run calls).Taken c ↔ c.Repeats calls := by
  simp only [Taken, holds_run, Registration.repeats_iff]

theorem emplace_run_error : (run calls).emplace c = .error (.duplicateName c.space c.name) ∧
    run (calls ++ [c]) = run calls ↔ c.Repeats calls := by
  rw [← taken_run, run_concat]
  constructor
  · rintro ⟨h, -⟩
    by_contra hfree
    rw [emplace_of_not_taken hfree] at h
    cases h
  · exact fun h => ⟨emplace_of_taken h, after_of_taken h⟩

theorem emplace_run_ok :
    (run calls).emplace c = .ok (run (calls ++ [c])) ↔ ¬c.Repeats calls := by
  rw [← taken_run, run_concat]
  constructor
  · intro h htaken
    rw [emplace_of_taken htaken] at h
    cases h
  · intro h
    rw [emplace_of_not_taken h, after_of_not_taken h]

theorem builders_run_object (name : String) (o : Object) :
    (run (calls ++ [.object name o])).builders = (run calls).builders := by
  rw [run_concat]
  by_cases h : (run calls).Taken (.object name o)
  · rw [after_of_taken h]
  · rw [after_of_not_taken h, add]

theorem objects_run_builder (name : String) (b : β) :
    (run (calls ++ [.builder name b])).objects = (run calls).objects := by
  rw [run_concat]
  by_cases h : (run calls).Taken (.builder name b)
  · rw [after_of_taken h]
  · rw [after_of_not_taken h, add]

-- ---------------------------------------------------------------------------
-- Look-up
-- ---------------------------------------------------------------------------

theorem object_ok {name : String} {o : Object} :
    r.object name = .ok o ↔ r.Holds (.object name o) := by
  change _ ↔ r.objects.lookup name = some o
  unfold object
  cases r.objects.lookup name <;> simp

theorem object_error {name : String} {e : ConfigError} : r.object name = .error e ↔
    e = .notFound .object name ∧ ∀ o, ¬r.Holds (.object name o) := by
  change _ ↔ _ ∧ ∀ o, ¬r.objects.lookup name = some o
  unfold object
  cases r.objects.lookup name <;> simp [eq_comm]

theorem builder?_eq_some {name : String} {b : β} :
    r.builder? name = some b ↔ r.Holds (.builder name b) := Iff.rfl

def ask (r : Registry β) (fits : Object → Bool) (expected name : String) :
    Except ConfigError Object :=
  match r.object name with
  | .ok o => if fits o then .ok o else .error (wrongObject name expected o)
  | .error e => .error e

theorem get_eq (r : Registry β) (kind : ObjectKind) (name : String) :
    r.get kind name = r.ask (fun o => o.kind = kind) kind.describe name := by
  cases kind with
  | operator =>
    unfold get operator ask
    cases r.object name with
    | error e => rfl
    | ok o => cases o <;> rfl
  | factory family =>
    unfold get factory ask
    cases r.object name with
    | error e => rfl
    | ok o =>
      cases o with
      | operator o => rfl
      | factory f => by_cases h : f.family = family <;> simp [h, Object.kind, Except.map]

theorem getAs_eq (r : Registry β) (type : ObjectType) (name : String) :
    r.getAs type name = r.ask (fun o => o.type = type) type.path name := by
  unfold getAs ask
  cases r.object name <;> simp

theorem ask_ok {fits : Object → Bool} {expected name : String} {o : Object} :
    r.ask fits expected name = .ok o ↔ r.Holds (.object name o) ∧ fits o = true := by
  rw [← object_ok, ask]
  cases r.object name with
  | error e => simp
  | ok p =>
    dsimp only
    split
    · rename_i h
      exact ⟨fun hp => ⟨hp, Except.ok.inj hp ▸ h⟩, And.left⟩
    · rename_i h
      exact ⟨nofun, fun hp => absurd (Except.ok.inj hp.1 ▸ hp.2) h⟩

theorem ask_error {fits : Object → Bool} {expected name : String} {e : ConfigError} :
    r.ask fits expected name = .error e ↔
      (e = .notFound .object name ∧ ∀ o, ¬r.Holds (.object name o)) ∨
        ∃ o, r.Holds (.object name o) ∧ fits o = false ∧
          e = .typeMismatch (.object name) expected o.describe := by
  rw [← object_error, ask]
  simp only [← object_ok]
  cases r.object name with
  | error e' => simp
  | ok p => cases h : fits p <;> simp [h, wrongObject, @eq_comm _ e]

-- ---------------------------------------------------------------------------
-- Builders one after another
-- ---------------------------------------------------------------------------

def builderCalls (builders : List (String × β)) : List (Registration β) :=
  builders.map fun entry => .builder entry.1 entry.2

theorem emplaceBuilders_append (r : Registry β) (first second : List (String × β)) :
    r.emplaceBuilders (first ++ second) =
      (r.emplaceBuilders first).bind fun r => r.emplaceBuilders second := by
  induction first generalizing r with
  | nil => rfl
  | cons entry rest ih =>
    rw [List.cons_append, emplaceBuilders, emplaceBuilders]
    cases r.emplaceBuilder entry.1 entry.2 with
    | error e => rfl
    | ok r => exact ih r

theorem repeats_builderCalls {builders : List (String × β)} {name : String} {b : β} :
    (Registration.builder name b).Repeats (builderCalls builders) ↔
      name ∈ builders.map Prod.fst := by
  simp [Registration.Repeats, Registration.sharesName_builder, builderCalls]

theorem ofBuilders_of_nodup {builders : List (String × β)} (h : (builders.map Prod.fst).Nodup) :
    ofBuilders builders = .ok (run (builderCalls builders)) := by
  induction builders using List.reverseRecOn with
  | nil => rfl
  | append_singleton builders last ih =>
    obtain ⟨name, b⟩ := last
    rw [List.map_append, List.map_singleton, ← List.concat_eq_append, List.nodup_concat] at h
    have hfree : ¬(Registration.builder name b).Repeats (builderCalls builders) :=
      repeats_builderCalls.not.mpr h.1
    have hlast : (run (builderCalls builders)).emplaceBuilder name b = _ := emplace_run_ok.mpr hfree
    rw [ofBuilders, emplaceBuilders_append, ← ofBuilders, ih h.2]
    simp only [Except.bind, emplaceBuilders, hlast]
    simp [builderCalls]

theorem ofBuilders_of_repeated {before after : List (String × β)} {name : String} {b : β}
    (h : (before.map Prod.fst).Nodup) (hname : name ∈ before.map Prod.fst) :
    ofBuilders (before ++ (name, b) :: after) = .error (.duplicateName .builder name) := by
  have hlast : (run (builderCalls before)).emplaceBuilder name b = _ :=
    (emplace_run_error.mpr (repeats_builderCalls.mpr hname)).1
  rw [ofBuilders, emplaceBuilders_append, ← ofBuilders, ofBuilders_of_nodup h]
  simp only [Except.bind, emplaceBuilders, hlast]
  rfl

theorem ofBuilders_ok {builders : List (String × β)} : ofBuilders builders = .ok r ↔
    (builders.map Prod.fst).Nodup ∧ r = run (builderCalls builders) := by
  by_cases h : (builders.map Prod.fst).Nodup
  · simp [ofBuilders_of_nodup h, h, @eq_comm _ r]
  · obtain ⟨name, hrepeat⟩ := exists_firstRepeat h
    obtain ⟨before, b, after, rfl, hbefore, hname⟩ := firstRepeat_keys.mp hrepeat
    rw [ofBuilders_of_repeated hbefore hname]
    exact iff_of_false nofun fun hr => h hr.1

theorem ofBuilders_error {builders : List (String × β)} {e : ConfigError} :
    ofBuilders builders = .error e ↔ ∃ before name b after,
      builders = before ++ (name, b) :: after ∧ (before.map Prod.fst).Nodup ∧
        name ∈ before.map Prod.fst ∧ e = .duplicateName .builder name := by
  constructor
  · intro he
    have hn : ¬(builders.map Prod.fst).Nodup := fun h => by
      rw [ofBuilders_of_nodup h] at he
      cases he
    obtain ⟨name, hrepeat⟩ := exists_firstRepeat hn
    obtain ⟨before, b, after, rfl, hbefore, hname⟩ := firstRepeat_keys.mp hrepeat
    rw [ofBuilders_of_repeated hbefore hname] at he
    exact ⟨before, name, b, after, rfl, hbefore, hname, (Except.error.inj he).symm⟩
  · rintro ⟨before, name, b, after, rfl, hbefore, hname, rfl⟩
    exact ofBuilders_of_repeated hbefore hname

/-- After any calls, a further one is refused exactly if its name was used, and then changes
nothing; what is found under a name is what the first call for it registered, in either namespace;
it is given out as the kind and as the type that it is of; and builders given as a list are those of
as many calls. -/
theorem run_keeps_first (calls : List (Registration β)) :
    (∀ c, ((run calls).emplace c = .error (.duplicateName c.space c.name) ∧
            run (calls ++ [c]) = run calls ↔ c.Repeats calls) ∧
          ((run calls).emplace c = .ok (run (calls ++ [c])) ↔ ¬c.Repeats calls)) ∧
      (∀ name o, (run calls).object name = .ok o ↔
        (Registration.object name o).FirstIn calls) ∧
      (∀ name b, (run calls).builder? name = some b ↔
        (Registration.builder name b).FirstIn calls) ∧
      (∀ name o, (run (calls ++ [.object name o])).builders = (run calls).builders) ∧
      (∀ name b, (run (calls ++ [.builder name b])).objects = (run calls).objects) ∧
      (∀ kind name o, (run calls).get kind name = .ok o ↔
        (Registration.object name o).FirstIn calls ∧ o.kind = kind) ∧
      (∀ kind name e, (run calls).get kind name = .error e ↔
        (e = .notFound .object name ∧ ∀ o, .object name o ∉ calls) ∨
          ∃ o, (Registration.object name o).FirstIn calls ∧ o.kind ≠ kind ∧
            e = .typeMismatch (.object name) kind.describe o.describe) ∧
      (∀ type name o, (run calls).getAs type name = .ok o ↔
        (Registration.object name o).FirstIn calls ∧ o.type = type) ∧
      (∀ type name e, (run calls).getAs type name = .error e ↔
        (e = .notFound .object name ∧ ∀ o, .object name o ∉ calls) ∨
          ∃ o, (Registration.object name o).FirstIn calls ∧ o.type ≠ type ∧
            e = .typeMismatch (.object name) type.path o.describe) ∧
      (∀ (builders : List (String × β)) r, ofBuilders builders = .ok r ↔
        (builders.map Prod.fst).Nodup ∧ r = run (builderCalls builders)) ∧
      ∀ (builders : List (String × β)) e, ofBuilders builders = .error e ↔
        ∃ before name b after, builders = before ++ (name, b) :: after ∧
          (before.map Prod.fst).Nodup ∧ name ∈ before.map Prod.fst ∧
            e = .duplicateName .builder name := by
  refine ⟨fun c => ⟨emplace_run_error, emplace_run_ok⟩, fun name o => ?_, fun name b => ?_,
    builders_run_object, objects_run_builder, fun kind name o => ?_, fun kind name e => ?_,
    fun type name o => ?_, fun type name e => ?_, fun builders r => ofBuilders_ok,
    fun builders e => ofBuilders_error⟩
  · rw [object_ok, holds_run]
  · rw [builder?_eq_some, holds_run]
  · rw [get_eq, ask_ok, holds_run, decide_eq_true_eq]
  · simp only [get_eq, ask_error, holds_run, decide_eq_false_iff_not,
      Registration.forall_not_firstIn]
  · rw [getAs_eq, ask_ok, holds_run, decide_eq_true_eq]
  · simp only [getAs_eq, ask_error, holds_run, decide_eq_false_iff_not,
      Registration.forall_not_firstIn, ne_eq]

end Registry

end SolverConfig
