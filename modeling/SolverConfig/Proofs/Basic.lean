import Mathlib.Data.List.Forall2
import Mathlib.Data.List.Induction
import Mathlib.Data.List.Nodup
import Mathlib.Data.List.Perm.Subperm

/-!
# Results, lists and entries

Successful results, lists related element by element, faults in the order in which they are looked
for, elements that occur again, and lists of entries under keys, for lemmas about any of the
readers.
-/

namespace SolverConfig

-- ---------------------------------------------------------------------------
-- Results
-- ---------------------------------------------------------------------------

section
variable {E F α β : Type} {x : Except E α} {a : α} {b : β}

theorem map_ok {f : α → β} : x.map f = .ok b ↔ ∃ a, x = .ok a ∧ f a = b := by
  cases x <;> simp [Except.map]

theorem map_error {f : α → β} {e : E} : x.map f = .error e ↔ x = .error e := by
  cases x <;> simp [Except.map]

theorem mapError_ok {f : E → F} : x.mapError f = .ok a ↔ x = .ok a := by
  cases x <;> simp [Except.mapError]

theorem mapError_error {f : E → F} {e' : F} :
    x.mapError f = .error e' ↔ ∃ e, x = .error e ∧ f e = e' := by
  cases x <;> simp [Except.mapError]

theorem bind_ok {f : α → Except E β} : x.bind f = .ok b ↔ ∃ a, x = .ok a ∧ f a = .ok b := by
  cases x <;> simp [Except.bind]

theorem except_bind_assoc {γ : Type} {f : α → Except E β} {g : β → Except E γ} :
    (x.bind f).bind g = x.bind fun a => (f a).bind g := by
  cases x <;> rfl

theorem except_map_bind {γ : Type} {f : α → β} {g : β → Except E γ} :
    (x.map f).bind g = x.bind fun a => g (f a) := by
  cases x <;> rfl

end

-- ---------------------------------------------------------------------------
-- Lists
-- ---------------------------------------------------------------------------

section
variable {α β : Type} {R S : α → β → Prop}

theorem forall₂_exists {as : List α} : (∃ bs, List.Forall₂ R as bs) ↔ ∀ a ∈ as, ∃ b, R a b := by
  induction as with
  | nil => simp
  | cons a rest ih =>
    rw [List.forall_mem_cons, ← ih]
    constructor
    · rintro ⟨_, _ | ⟨ha, hrest⟩⟩
      exact ⟨⟨_, ha⟩, _, hrest⟩
    · rintro ⟨⟨b, hb⟩, bs, hbs⟩
      exact ⟨b :: bs, .cons hb hbs⟩

theorem forall₂_getElem? {as : List α} {bs : List β} (h : List.Forall₂ R as bs) {i : Nat} {a : α}
    (ha : as[i]? = some a) : ∃ b, bs[i]? = some b ∧ R a b := by
  induction h generalizing i with
  | nil => cases ha
  | cons first _ ih =>
    cases i with
    | zero =>
      obtain rfl := Option.some.inj ha
      exact ⟨_, rfl, first⟩
    | succ i => exact ih ha

theorem forall₂_imp {as : List α} {bs : List β} (h : ∀ a ∈ as, ∀ b, R a b → S a b)
    (hR : List.Forall₂ R as bs) : List.Forall₂ S as bs := by
  induction hR with
  | nil => exact .nil
  | cons first _ ih =>
    obtain ⟨ha, hrest⟩ := List.forall_mem_cons.mp h
    exact .cons (ha _ first) (ih hrest)

theorem forall₂_iff {P : α → Prop} {as : List α} (h : ∀ a ∈ as, ∀ b, R a b ↔ P a ∧ S a b)
    {bs : List β} : List.Forall₂ R as bs ↔ (∀ a ∈ as, P a) ∧ List.Forall₂ S as bs := by
  rw [← List.forall₂_and_left]
  exact ⟨forall₂_imp fun a ha b => (h a ha b).mp, forall₂_imp fun a ha b => (h a ha b).mpr⟩

theorem forall₂_congr_left {γ : Type} {T : β → γ → Prop} {U : α → γ → Prop} {as : List α}
    {bs : List β} (hR : List.Forall₂ R as bs)
    (h : ∀ a ∈ as, ∀ b, R a b → ∀ c, T b c ↔ U a c) {cs : List γ} :
    List.Forall₂ T bs cs ↔ List.Forall₂ U as cs := by
  induction hR generalizing cs with
  | nil => simp
  | cons first _ ih =>
    obtain ⟨ha, hrest⟩ := List.forall_mem_cons.mp h
    simp only [List.forall₂_cons_left_iff, ha _ first, ih hrest]

theorem forall₂_trans {γ : Type} {T : β → γ → Prop} {U : α → γ → Prop} {as : List α}
    {bs : List β} {cs : List γ} (hR : List.Forall₂ R as bs) (hT : List.Forall₂ T bs cs)
    (h : ∀ a ∈ as, ∀ b c, R a b → T b c → U a c) : List.Forall₂ U as cs := by
  induction hR generalizing cs with
  | nil =>
    cases hT
    exact .nil
  | cons first _ ih =>
    obtain ⟨ha, hrest⟩ := List.forall_mem_cons.mp h
    cases hT with
    | cons second hT => exact .cons (ha _ _ first second) (ih hT hrest)

end

-- ---------------------------------------------------------------------------
-- Optional values
-- ---------------------------------------------------------------------------

section
variable {α β γ : Type} {R S : α → β → Prop} {x : Option α} {y : Option β} {z : Option γ}

theorem optionRel_imp (hR : Option.Rel R x y) (h : ∀ a b, x = some a → R a b → S a b) :
    Option.Rel S x y := by
  cases hR with
  | none => exact .none
  | some hab => exact .some (h _ _ rfl hab)

theorem optionRel_symm {T : β → α → Prop} (hR : Option.Rel R x y)
    (h : ∀ a b, x = some a → R a b → T b a) : Option.Rel T y x := by
  cases hR with
  | none => exact .none
  | some hab => exact .some (h _ _ rfl hab)

theorem optionRel_trans {T : β → γ → Prop} {U : α → γ → Prop} (hR : Option.Rel R x y)
    (hT : Option.Rel T y z) (h : ∀ a b c, x = some a → R a b → T b c → U a c) :
    Option.Rel U x z := by
  cases hR with
  | none =>
    cases hT
    exact .none
  | some hab =>
    cases hT with
    | some hbc => exact .some (h _ _ _ rfl hab hbc)

theorem optionRel_getElem? {as : List α} {bs : List β} (h : List.Forall₂ R as bs) (i : Nat) :
    Option.Rel R as[i]? bs[i]? := by
  induction h generalizing i with
  | nil => exact .none
  | cons hab _ ih =>
    cases i with
    | zero => exact .some hab
    | succ i => exact ih i

end

theorem forall_mem_iff_of_forall₂ {α γ : Type} {R : α → γ → Prop} {P : α → Prop} {Q : γ → Prop}
    {as : List α} {bs : List γ} (h : List.Forall₂ R as bs)
    (hR : ∀ a ∈ as, ∀ b, R a b → (Q b ↔ P a)) : (∀ b ∈ bs, Q b) ↔ ∀ a ∈ as, P a := by
  induction h with
  | nil => simp
  | @cons a b as bs hab _ ih =>
    rw [List.forall_mem_cons] at hR ⊢
    rw [List.forall_mem_cons, hR.1 b hab, ih hR.2]

theorem mapM_ok {E α γ : Type} {f : α → Except E γ} {as : List α} {bs : List γ} :
    as.mapM f = .ok bs ↔ List.Forall₂ (fun a b => f a = .ok b) as bs := by
  induction as generalizing bs with
  | nil => simp [pure, Except.pure, eq_comm]
  | cons a rest ih =>
    rw [List.mapM_cons, List.forall₂_cons_left_iff]
    cases hf : f a with
    | error e => simp [bind, Except.bind]
    | ok b =>
      cases hm : rest.mapM f with
      | error e => simp [bind, Except.bind, ← ih, hm]
      | ok bs' => simp [bind, Except.bind, pure, Except.pure, ← ih, hm, eq_comm]

theorem mapM_some {α β : Type} {f : α → Option β} {as : List α} {bs : List β} :
    as.mapM f = some bs ↔ List.Forall₂ (fun a b => f a = some b) as bs := by
  induction as generalizing bs with
  | nil => simp [eq_comm]
  | cons a rest ih =>
    rw [List.mapM_cons, List.forall₂_cons_left_iff]
    cases f a with
    | none => simp
    | some b => cases hm : rest.mapM f <;> simp [← ih, hm, eq_comm]

-- ---------------------------------------------------------------------------
-- Faults in order
-- ---------------------------------------------------------------------------

/-- The first of several kinds of faults that there is, with an error of it. -/
inductive First {ε : Type} : List (ε → Prop) → ε → Prop
  | here {F : ε → Prop} {rest : List (ε → Prop)} {e : ε} (fault : F e) : First (F :: rest) e
  | later {F : ε → Prop} {rest : List (ε → Prop)} {e : ε} (none : ∀ e, ¬F e)
      (first : First rest e) : First (F :: rest) e

namespace First

variable {ε : Type} {F : ε → Prop} {faults rest : List (ε → Prop)} {e : ε}

protected theorem nil : ¬First [] e := nofun

protected theorem cons : First (F :: rest) e ↔ F e ∨ (∀ e, ¬F e) ∧ First rest e := by
  constructor
  · rintro (h | ⟨hno, h⟩)
    · exact .inl h
    · exact .inr ⟨hno, h⟩
  · rintro (h | ⟨hno, h⟩)
    · exact .here h
    · exact .later hno h

@[simp] theorem single : First [F] e ↔ F e := by simp [First.cons, First.nil]

theorem skip (h : ∀ e, ¬F e) : First (F :: rest) e ↔ First rest e := by simp [First.cons, h]

theorem only {fault : ε} (h : ∀ e, F e ↔ e = fault) : First (F :: rest) e ↔ e = fault := by
  simp [First.cons, h]

theorem append :
    First (faults ++ rest) e ↔ First faults e ∨ (∀ F ∈ faults, ∀ e, ¬F e) ∧ First rest e := by
  induction faults with
  | nil => simp [First.nil]
  | cons F faults ih =>
    rw [List.cons_append, First.cons, First.cons, ih, List.forall_mem_cons]
    tauto

theorem exists_mem (h : First faults e) : ∃ F ∈ faults, F e := by
  induction h with
  | here h => exact ⟨_, List.mem_cons_self, h⟩
  | later _ _ ih =>
    obtain ⟨F, hF, h⟩ := ih
    exact ⟨F, List.mem_cons_of_mem _ hF, h⟩

theorem exists_map {α : Type} {G : α → ε → Prop} {as : List α} (h : First (as.map G) e) :
    ∃ a ∈ as, G a e := by
  obtain ⟨_, hG, he⟩ := h.exists_mem
  obtain ⟨a, ha, rfl⟩ := List.mem_map.mp hG
  exact ⟨a, ha, he⟩

theorem of_getElem? {α : Type} {G : α → ε → Prop} {as : List α} {i : Nat} {a : α}
    (ha : as[i]? = some a) (hbefore : ∀ j < i, ∀ b, as[j]? = some b → ∀ e, ¬G b e) (he : G a e) :
    First (as.map G) e := by
  induction as generalizing i with
  | nil => cases ha
  | cons b rest ih =>
    cases i with
    | zero =>
      obtain rfl := Option.some.inj ha
      exact .here he
    | succ i =>
      refine .later (hbefore 0 (Nat.zero_lt_succ i) b rfl) (ih ha fun j hj => ?_)
      exact hbefore (j + 1) (Nat.succ_lt_succ hj)

theorem exists_of_mem (hF : F ∈ faults) (h : F e) : ∃ e, First faults e := by
  induction faults with
  | nil => cases hF
  | cons G rest ih =>
    by_cases hG : ∃ e, G e
    · obtain ⟨e, hG⟩ := hG
      exact ⟨e, .here hG⟩
    · have hno : ∀ e, ¬G e := fun e he => hG ⟨e, he⟩
      rcases List.mem_cons.mp hF with rfl | hF
      · exact absurd h (hno e)
      · obtain ⟨e, hfirst⟩ := ih hF
        exact ⟨e, .later hno hfirst⟩

theorem forall_not_iff : (∀ F ∈ faults, ∀ e, ¬F e) ↔ ∀ e, ¬First faults e := by
  constructor
  · intro h e hfirst
    obtain ⟨F, hF, he⟩ := hfirst.exists_mem
    exact h F hF e he
  · intro h F hF e he
    obtain ⟨e', hfirst⟩ := exists_of_mem hF he
    exact h e' hfirst

end First

theorem mapM_error {E α β : Type} {f : α → Except E β} {as : List α} {e : E} :
    as.mapM f = .error e ↔ First (as.map fun a e => f a = .error e) e := by
  induction as with
  | nil => simp [pure, Except.pure, First.nil]
  | cons a rest ih =>
    rw [List.mapM_cons, List.map_cons, First.cons, ← ih]
    cases f a with
    | error e' => simp [bind, Except.bind]
    | ok b => cases rest.mapM f <;> simp [bind, Except.bind, pure, Except.pure]

-- ---------------------------------------------------------------------------
-- Repeats
-- ---------------------------------------------------------------------------

/-- The first of the elements that stands in front of itself already. -/
def FirstRepeat {α : Type} (as : List α) (a : α) : Prop :=
  ∃ before after, as = before ++ a :: after ∧ before.Nodup ∧ a ∈ before

theorem exists_firstRepeat {α : Type} {as : List α} (h : ¬as.Nodup) : ∃ a, FirstRepeat as a := by
  induction as using List.reverseRecOn with
  | nil => exact absurd List.nodup_nil h
  | append_singleton as last ih =>
    by_cases hn : as.Nodup
    · rw [← List.concat_eq_append, List.nodup_concat] at h
      exact ⟨last, as, [], rfl, hn, not_not.mp fun hlast => h ⟨hlast, hn⟩⟩
    · obtain ⟨a, before, after, rfl, hbefore, ha⟩ := ih hn
      exact ⟨a, before, after ++ [last], by simp, hbefore, ha⟩

-- ---------------------------------------------------------------------------
-- Entries
-- ---------------------------------------------------------------------------

section
variable {κ α : Type} [BEq κ] [LawfulBEq κ] {entries : List (κ × α)} {key : κ} {a : α}

theorem mem_of_lookup (h : entries.lookup key = some a) : (key, a) ∈ entries := by
  obtain ⟨before, after, rfl, -⟩ := List.lookup_eq_some_iff.mp h
  simp

theorem lookup_eq_none_iff : entries.lookup key = none ↔ key ∉ entries.map Prod.fst := by
  rw [List.lookup_eq_none_iff, List.mem_map]
  simp only [bne_iff_ne]
  constructor
  · rintro h ⟨entry, he, rfl⟩
    exact h entry he rfl
  · rintro h entry he rfl
    exact h ⟨entry, he, rfl⟩

end

section
variable {α : Type} {entries others : List (String × α)} {key : String} {a : α}

theorem lookup_of_mem (hn : (entries.map Prod.fst).Nodup) (h : (key, a) ∈ entries) :
    entries.lookup key = some a := by
  induction entries with
  | nil => cases h
  | cons entry rest ih =>
    rw [List.map_cons, List.nodup_cons] at hn
    rcases List.mem_cons.mp h with rfl | h
    · exact List.lookup_cons_self
    · have hne : key ≠ entry.1 := by
        rintro rfl
        exact hn.1 (List.mem_map.mpr ⟨_, h, rfl⟩)
      rw [List.lookup_cons, beq_false_of_ne hne]
      exact ih hn.2 h

theorem firstRepeat_keys : FirstRepeat (entries.map Prod.fst) key ↔ ∃ before a after,
    entries = before ++ (key, a) :: after ∧ (before.map Prod.fst).Nodup ∧
      key ∈ before.map Prod.fst := by
  constructor
  · rintro ⟨keys, others, hsplit, hkeys, hkey⟩
    obtain ⟨before, later, rfl, rfl, hlater⟩ := List.map_eq_append_iff.mp hsplit
    obtain ⟨⟨_, a⟩, after, rfl, rfl, -⟩ := List.map_eq_cons_iff.mp hlater
    exact ⟨before, a, after, rfl, hkeys, hkey⟩
  · rintro ⟨before, a, after, rfl, hkeys, hkey⟩
    exact ⟨_, after.map Prod.fst, List.map_append, hkeys, hkey⟩

theorem lookup_concat {other : String} {b : α} :
    (entries ++ [(key, a)]).lookup other = some b ↔ entries.lookup other = some b ∨
      entries.lookup other = none ∧ other = key ∧ b = a := by
  rw [List.lookup_append, Option.or_eq_some_iff, List.lookup_cons]
  by_cases hk : other = key
  · subst hk
    simp [@eq_comm _ b]
  · simp [beq_false_of_ne hk, hk]

theorem lookup_insert_of_ne {other : String} (h : other ≠ key) :
    (entries ++ (key, a) :: others).lookup other = (entries ++ others).lookup other := by
  simp [List.lookup_append, List.lookup_cons, beq_false_of_ne h]

theorem lookup_insert_self (h : (entries ++ others).lookup key = none) :
    (entries ++ (key, a) :: others).lookup key = some a := by
  rw [List.lookup_append, Option.or_eq_none_iff] at h
  simp [List.lookup_append, h.1]

theorem lookup_perm (hn : (entries.map Prod.fst).Nodup) (h : entries.Perm others) (key : String) :
    entries.lookup key = others.lookup key := by
  have hn' : (others.map Prod.fst).Nodup := (h.map Prod.fst).nodup_iff.mp hn
  cases hl : entries.lookup key with
  | some a => exact (lookup_of_mem hn' (h.mem_iff.mp (mem_of_lookup hl))).symm
  | none =>
    rw [lookup_eq_none_iff] at hl
    exact (lookup_eq_none_iff.mpr fun hm => hl ((h.map Prod.fst).mem_iff.mpr hm)).symm

theorem lookup_forall₂ {β : Type} {R : α → β → Prop} {others : List (String × β)}
    (hk : entries.map Prod.fst = others.map Prod.fst)
    (h : List.Forall₂ R (entries.map Prod.snd) (others.map Prod.snd)) (key : String) :
    Option.Rel R (entries.lookup key) (others.lookup key) := by
  induction entries generalizing others with
  | nil =>
    obtain rfl : others = [] := by simpa using hk.symm
    exact .none
  | cons entry rest ih =>
    cases others with
    | nil => cases hk
    | cons other rest' =>
      obtain ⟨k, a⟩ := entry
      obtain ⟨k', b⟩ := other
      simp only [List.map_cons, List.cons.injEq] at hk
      obtain ⟨rfl, hk⟩ := hk
      obtain ⟨hab, h⟩ := List.forall₂_cons.mp h
      rw [List.lookup_cons, List.lookup_cons]
      cases key == k with
      | true => exact .some hab
      | false => exact ih hk h

end

inductive Keyed {α β : Type} (R : α → β → Prop) : String × α → String × β → Prop
  | intro {key : String} {a : α} {b : β} (value : R a b) : Keyed R (key, a) (key, b)

namespace Keyed

variable {α β : Type} {R : α → β → Prop}

protected theorem iff {entry : String × α} {other : String × β} :
    Keyed R entry other ↔ entry.1 = other.1 ∧ R entry.2 other.2 := by
  obtain ⟨key, a⟩ := entry
  obtain ⟨key', b⟩ := other
  constructor
  · rintro ⟨h⟩
    exact ⟨rfl, h⟩
  · rintro ⟨hkey, h⟩
    obtain rfl : key = key' := hkey
    exact .intro h

theorem exists_iff {entry : String × α} : (∃ other, Keyed R entry other) ↔ ∃ b, R entry.2 b := by
  constructor
  · rintro ⟨_, ⟨h⟩⟩
    exact ⟨_, h⟩
  · rintro ⟨b, h⟩
    exact ⟨(entry.1, b), .intro h⟩

theorem forall₂_exists {entries : List (String × α)} :
    (∃ others, List.Forall₂ (Keyed R) entries others) ↔ ∀ entry ∈ entries, ∃ b, R entry.2 b :=
  SolverConfig.forall₂_exists.trans (forall₂_congr fun _ _ => exists_iff)

theorem forall₂_iff {S : α → β → Prop} {P : α → Prop} {entries : List (String × α)}
    (h : ∀ entry ∈ entries, ∀ b, R entry.2 b ↔ P entry.2 ∧ S entry.2 b)
    {others : List (String × β)} : List.Forall₂ (Keyed R) entries others ↔
      (∀ entry ∈ entries, P entry.2) ∧ List.Forall₂ (Keyed S) entries others := by
  refine SolverConfig.forall₂_iff fun entry hentry other => ?_
  rw [Keyed.iff, Keyed.iff, h entry hentry]
  exact and_left_comm

theorem forall₂_imp {S : α → β → Prop} {entries : List (String × α)} {others : List (String × β)}
    (hR : List.Forall₂ (Keyed R) entries others)
    (h : ∀ entry ∈ entries, ∀ b, R entry.2 b → S entry.2 b) :
    List.Forall₂ (Keyed S) entries others := by
  refine SolverConfig.forall₂_imp (fun entry he other hR => ?_) hR
  rw [Keyed.iff] at hR ⊢
  exact ⟨hR.1, h entry he _ hR.2⟩

theorem forall₂_symm {S : β → α → Prop} {entries : List (String × α)} {others : List (String × β)}
    (hR : List.Forall₂ (Keyed R) entries others)
    (h : ∀ entry ∈ entries, ∀ b, R entry.2 b → S b entry.2) :
    List.Forall₂ (Keyed S) others entries := by
  refine (SolverConfig.forall₂_imp (fun entry he other hR => ?_) hR).flip
  have hentry := Keyed.iff.mp hR
  exact Keyed.iff.mpr ⟨hentry.1.symm, h entry he _ hentry.2⟩

theorem forall₂_trans {γ : Type} {S : β → γ → Prop} {T : α → γ → Prop}
    {entries : List (String × α)} {middle : List (String × β)} {others : List (String × γ)}
    (hR : List.Forall₂ (Keyed R) entries middle) (hS : List.Forall₂ (Keyed S) middle others)
    (h : ∀ entry ∈ entries, ∀ b c, R entry.2 b → S b c → T entry.2 c) :
    List.Forall₂ (Keyed T) entries others := by
  refine SolverConfig.forall₂_trans hR hS fun entry he _ _ hR hS => ?_
  rw [Keyed.iff] at hR hS ⊢
  exact ⟨hR.1.trans hS.1, h entry he _ _ hR.2 hS.2⟩

theorem keys_eq {entries : List (String × α)} {others : List (String × β)}
    (h : List.Forall₂ (Keyed R) entries others) :
    entries.map Prod.fst = others.map Prod.fst := by
  induction h with
  | nil => rfl
  | cons first _ ih => rw [List.map_cons, List.map_cons, (Keyed.iff.mp first).1, ih]

theorem lookup {entries : List (String × α)} {others : List (String × β)}
    (h : List.Forall₂ (Keyed R) entries others) (key : String) :
    Option.Rel R (entries.lookup key) (others.lookup key) := by
  refine lookup_forall₂ (keys_eq h) ?_ key
  rw [List.forall₂_map_left_iff, List.forall₂_map_right_iff]
  exact h.imp fun _ _ h => (Keyed.iff.mp h).2

end Keyed

section
variable {α β : Type} {R : α → β → Prop} {entries : List (String × α)} {others : List (String × β)}

theorem keys_perm_of_rel (hl : (entries.map Prod.fst).Nodup) (hr : (others.map Prod.fst).Nodup)
    (h : ∀ key, Option.Rel R (entries.lookup key) (others.lookup key)) :
    (entries.map Prod.fst).Perm (others.map Prod.fst) := by
  refine (List.perm_ext_iff_of_nodup hl hr).mpr fun key => ?_
  rw [← not_iff_not, ← lookup_eq_none_iff, ← lookup_eq_none_iff]
  have hkey := h key
  generalize entries.lookup key = x, others.lookup key = y at hkey
  cases hkey <;> simp

theorem forall_lookup_iff (hl : (entries.map Prod.fst).Nodup) (hr : (others.map Prod.fst).Nodup) :
    (∀ key, Option.Rel R (entries.lookup key) (others.lookup key)) ↔
      ∃ middle, List.Forall₂ (Keyed R) entries middle ∧ middle.Perm others := by
  constructor
  · intro h
    have hfound : ∀ entry ∈ entries, ∃ other, Keyed R entry other ∧ other ∈ others := by
      rintro ⟨key, a⟩ he
      have hkey := h key
      rw [lookup_of_mem hl he] at hkey
      generalize hb : others.lookup key = y at hkey
      cases hkey with
      | some hab => exact ⟨_, .intro hab, mem_of_lookup hb⟩
    obtain ⟨middle, hmiddle⟩ := forall₂_exists.mpr hfound
    obtain ⟨hsub, heach⟩ :=
      (List.forall₂_and_left _ _).mp (hmiddle.flip.imp fun _ _ h => ⟨h.2, h.1⟩)
    -- Nothing of the other entries is left out, for there are no more of them.
    have hn : (middle.map Prod.fst).Nodup := by rwa [← Keyed.keys_eq heach.flip]
    have hlength : others.length ≤ middle.length := by
      have hkeys := (keys_perm_of_rel hl hr h).length_eq
      rw [List.length_map, List.length_map] at hkeys
      exact Nat.le_of_eq (heach.length_eq.trans hkeys).symm
    exact ⟨middle, heach.flip, ((List.Nodup.of_map _ hn).subperm hsub).perm_of_length_le hlength⟩
  · rintro ⟨middle, heach, hperm⟩ key
    have hn : (middle.map Prod.fst).Nodup := by rwa [← Keyed.keys_eq heach]
    rw [← lookup_perm hn hperm]
    exact Keyed.lookup heach key

end

end SolverConfig
