import SolverConfig.Proofs.Basic
import SolverConfig.Proofs.Json.Document

/-!
# Reading documents

A text that spells a document is read as the document is built from left to right, part by part:
the machine stops at the first part that cannot be built, or where arrays and objects nest too deep.
-/

namespace SolverConfig.Json

-- ---------------------------------------------------------------------------
-- Building
-- ---------------------------------------------------------------------------

namespace Builder

variable {α : Type} (b : Builder α)

mutual

/-- What a document is built into. Arrays and objects may nest as deep as `depth`. -/
def build : Document → Nat → Except Fault α
  | .null, _ => .ok b.null
  | .boolean x, _ => .ok (b.boolean x)
  | .number l, _ =>
    match Number.ofLiteral? l with
    | some n => b.number n
    | none => .error .malformed
  | .text s, _ => .ok (b.text s)
  | .array items, depth =>
    match depth with
    | 0 => .error .malformed
    | depth + 1 => (buildItems items depth).map b.array
  | .object entries, depth =>
    match depth with
    | 0 => .error .malformed
    | depth + 1 => (buildEntries entries depth []).map b.object
termination_by structural D => D

def buildItems : List Document → Nat → Except Fault (List α)
  | [], _ => .ok []
  | D :: rest, depth =>
    (build D depth).bind fun v => (buildItems rest depth).map fun vs => v :: vs
termination_by structural items => items

def buildEntries : List (String × Document) → Nat → List (String × α) →
    Except Fault (List (String × α))
  | [], _, built => .ok built
  | (key, D) :: rest, depth, built =>
    (build D depth).bind fun v =>
      (b.entry built key v).bind fun built => buildEntries rest depth built
termination_by structural entries => entries

end

end Builder

-- ---------------------------------------------------------------------------
-- Runs of the machine
-- ---------------------------------------------------------------------------

namespace Machine

variable {α : Type} (b : Builder α)

/-- What the machine makes of the rest of a text. -/
def answer (m : Machine α) (cs : List Char) : Except Fault α := (run b m cs).bind (result b)

/-- What it makes of the rest of a text once it has read a value. -/
def deliver (frames : List (Frame α)) (cs : List Char) (value : α) : Except Fault α :=
  (finish b frames value).bind fun m => answer b m cs

variable {b}

@[simp] theorem answer_nil (m : Machine α) : answer b m [] = m.result b := rfl

theorem answer_cons (m : Machine α) (c : Char) (cs : List Char) :
    answer b m (c :: cs) = (step b m c).bind fun m => answer b m cs := by
  rw [answer, run]
  cases step b m c <;> rfl

theorem read_eq_answer (text : String) : read b text = answer b .start text.toList := by
  rw [read, answer]
  cases run b .start text.toList <;> rfl

theorem answer_blanks {m : Machine α} (hm : ∀ c, step b m c = structural b m c) {cs : List Char}
    (hcs : Blanks cs) (rest : List Char) : answer b m (cs ++ rest) = answer b m rest := by
  induction cs with
  | nil => rfl
  | cons c cs ih =>
    obtain ⟨hc, hcs⟩ := List.forall_mem_cons.mp hcs
    rw [List.cons_append, answer_cons, hm, structural, if_pos hc]
    exact ih hcs

theorem finish_ok {frames : List (Frame α)} {value : α} {m : Machine α}
    (h : finish b frames value = .ok m) : m.mode = .next ∨ m = ⟨[], .done value⟩ := by
  unfold finish at h
  split at h
  · exact .inr (Except.ok.inj h).symm
  · obtain rfl := Except.ok.inj h
    exact .inl rfl
  · split at h
    · obtain rfl := Except.ok.inj h
      exact .inl rfl
    · cases h

theorem step_of_finish {frames : List (Frame α)} {value : α} {m : Machine α}
    (h : finish b frames value = .ok m) (c : Char) : step b m c = structural b m c := by
  obtain ⟨frames', mode⟩ := m
  rcases finish_ok h with hmode | hdone
  · obtain rfl : mode = .next := hmode
    rfl
  · cases hdone
    rfl

theorem deliver_blanks {frames : List (Frame α)} {cs : List Char} (hcs : Blanks cs)
    (rest : List Char) : deliver b frames (cs ++ rest) = deliver b frames rest := by
  funext value
  unfold deliver
  cases h : finish b frames value with
  | ok m => exact answer_blanks (step_of_finish h) hcs rest
  | error fault => rfl

theorem answer_word {frames : List (Frame α)} {value : α} {c : Char} {cs : List Char}
    (rest : List Char) :
    answer b ⟨frames, .word (c :: cs) value⟩ (c :: cs ++ rest) = deliver b frames rest value := by
  induction cs generalizing c with
  | nil =>
    have hstep : step b ⟨frames, .word [c] value⟩ c = finish b frames value := by simp [step]
    rw [List.cons_append, answer_cons, hstep]
    rfl
  | cons d cs ih =>
    have hstep : step b ⟨frames, .word (c :: d :: cs) value⟩ c =
        .ok ⟨frames, .word (d :: cs) value⟩ := by simp [step]
    rw [List.cons_append, answer_cons, hstep]
    exact ih

/-- Characters that take a mode from one state to another, one by one. -/
theorem answer_foldlM {σ : Type} {extend? : σ → Char → Option σ} {mode : σ → Mode α}
    {frames : List (Frame α)}
    (hstep : ∀ s c s', extend? s c = some s' → step b ⟨frames, mode s⟩ c = .ok ⟨frames, mode s'⟩)
    {s s' : σ} {cs : List Char} (h : cs.foldlM extend? s = some s') (rest : List Char) :
    answer b ⟨frames, mode s⟩ (cs ++ rest) = answer b ⟨frames, mode s'⟩ rest := by
  induction cs generalizing s with
  | nil =>
    obtain rfl := Option.some.inj h
    rfl
  | cons c cs ih =>
    rw [List.foldlM_cons] at h
    obtain ⟨s₁, hs, h⟩ := Option.bind_eq_some_iff.mp h
    rw [List.cons_append, answer_cons, hstep s c s₁ hs]
    exact ih h

end Machine

-- ---------------------------------------------------------------------------
-- Strings
-- ---------------------------------------------------------------------------

namespace PartialText

def extend? (t : PartialText) (c : Char) : Option PartialText :=
  match t.next c with
  | .extend t => some t
  | _ => none

theorem extend?_eq_some {t t' : PartialText} {c : Char} :
    t.extend? c = some t' ↔ t.next c = .extend t' := by
  unfold extend?
  cases t.next c <;> simp

/-- What a complete code unit adds does not depend on where it was read. -/
theorem addUnit_phase {p : TextPhase} {content : List Char} {high : Option Nat} {n : Nat} :
    addUnit ⟨p, content⟩ high n = addUnit ⟨.plain, content⟩ high n := by
  cases high <;> rfl

theorem foldlM_unit {n : Nat} {cs : List Char} (h : SpellsUnit n cs) (high : Option Nat)
    (content : List Char) :
    cs.foldlM extend? ⟨.unit high 3 0, content⟩ =
      match addUnit ⟨.plain, content⟩ high n with
      | .extend t => some t
      | _ => none := by
  obtain ⟨h₁, h₂, h₃, h₄⟩ := h
  simp only [List.foldlM_cons, List.foldlM_nil, extend?, next, h₁, h₂, h₃, h₄, withPhase,
    Nat.mul_zero, Nat.zero_add, Option.bind_eq_bind, Option.bind_some, addUnit_phase]
  cases addUnit ⟨.plain, content⟩ high _ <;> rfl

theorem foldlM_char {c : Char} {cs : List Char} (h : SpellsChar c cs) (content : List Char) :
    cs.foldlM extend? ⟨.plain, content⟩ = some ⟨.plain, c :: content⟩ := by
  cases h with
  | plain hq hb hp =>
    have hnext : extend? ⟨.plain, content⟩ c = some ⟨.plain, c :: content⟩ := by
      simp [extend?, next, push, hq, hb, Nat.not_lt.mpr hp]
    rw [List.foldlM_cons, hnext]
    rfl
  | @escape _ d hd =>
    have hu : d ≠ 'u' := by
      rintro rfl
      cases hd
    have hnext : extend? ⟨.escape, content⟩ d = some ⟨.plain, c :: content⟩ := by
      simp [extend?, next, push, hu, hd]
    change (List.foldlM extend? ⟨.escape, content⟩ [d]) = _
    rw [List.foldlM_cons, hnext]
    rfl
  | @unit n cs hunit hhigh hlow =>
    change (List.foldlM extend? ⟨.unit none 3 0, content⟩ cs) = _
    rw [foldlM_unit hunit, addUnit, hhigh, hlow]
    rfl
  | @pair high low cs ds hfirst hsecond hhigh hlow =>
    change (List.foldlM extend? ⟨.unit none 3 0, content⟩ (cs ++ '\\' :: 'u' :: ds)) = _
    rw [List.foldlM_append, foldlM_unit hfirst, addUnit, hhigh]
    change (List.foldlM extend? ⟨.unit (some high) 3 0, content⟩ ds) = _
    rw [foldlM_unit hsecond, addUnit, hlow]
    rfl

theorem foldlM_text {content cs : List Char} (h : SpellsText content cs) (before : List Char) :
    cs.foldlM extend? ⟨.plain, before⟩ = some ⟨.plain, content.reverse ++ before⟩ := by
  induction h generalizing before with
  | nil => rfl
  | cons hc _ ih =>
    rw [List.foldlM_append, foldlM_char hc, List.reverse_cons, List.append_assoc]
    exact ih _

theorem foldlM_start {content cs : List Char} (h : SpellsText content cs) :
    cs.foldlM extend? start = some ⟨.plain, content.reverse⟩ := by
  have hall := foldlM_text h []
  rwa [List.append_nil] at hall

end PartialText

namespace Machine

variable {α : Type} {b : Builder α} {frames : List (Frame α)} {cs : List Char}

theorem next_quote (content : List Char) :
    PartialText.next ⟨.plain, content⟩ '"' = .finish content.reverse := rfl

theorem answer_quoted {s : String} (h : SpellsText s.toList cs) (rest : List Char) :
    answer b ⟨frames, .text .start⟩ (cs ++ '"' :: rest) = deliver b frames rest (b.text s) := by
  have hstep : ∀ t c t', PartialText.extend? t c = some t' →
      step b ⟨frames, .text t⟩ c = .ok ⟨frames, .text t'⟩ := fun t c t' ht => by
    simp only [step, PartialText.extend?_eq_some.mp ht]
  have hend : step b ⟨frames, .text ⟨.plain, s.toList.reverse⟩⟩ '"' =
      finish b frames (b.text s) := by
    simp only [step, next_quote, List.reverse_reverse, String.ofList_toList]
  rw [answer_foldlM hstep (PartialText.foldlM_start h), answer_cons, hend]
  rfl

theorem answer_quotedKey {entries : List (String × α)} {old key : String}
    (h : SpellsText key.toList cs) (rest : List Char) :
    answer b ⟨.object entries old :: frames, .keyText .start⟩ (cs ++ '"' :: rest) =
      answer b ⟨.object entries key :: frames, .colon⟩ rest := by
  have hstep : ∀ t c t', PartialText.extend? t c = some t' →
      step b ⟨.object entries old :: frames, .keyText t⟩ c =
        .ok ⟨.object entries old :: frames, .keyText t'⟩ := fun t c t' ht => by
    simp only [step, PartialText.extend?_eq_some.mp ht]
  have hend : step b ⟨.object entries old :: frames,
      .keyText ⟨.plain, key.toList.reverse⟩⟩ '"' =
        .ok ⟨.object entries key :: frames, .colon⟩ := by
    simp only [step, next_quote, setKey, List.reverse_reverse, String.ofList_toList]
  rw [answer_foldlM hstep (PartialText.foldlM_start h), answer_cons, hend]
  rfl

end Machine

-- ---------------------------------------------------------------------------
-- Numbers
-- ---------------------------------------------------------------------------

namespace PartialNumber

def extend? (n : PartialNumber) (c : Char) : Option PartialNumber :=
  match n.next c with
  | .extend n => some n
  | _ => none

theorem extend?_eq_some {n n' : PartialNumber} {c : Char} :
    n.extend? c = some n' ↔ n.next c = .extend n' := by
  unfold extend?
  cases n.next c <;> simp

theorem foldlM_digits {collected : List Char → PartialNumber}
    (hnext : ∀ seen c, isDigit c = true →
      (collected seen).extend? c = some (collected (seen ++ [c])))
    {ds : List Char} (hds : ∀ c ∈ ds, isDigit c = true) (seen : List Char) :
    ds.foldlM extend? (collected seen) = some (collected (seen ++ ds)) := by
  induction ds generalizing seen with
  | nil =>
    rw [List.append_nil]
    rfl
  | cons c ds ih =>
    obtain ⟨hc, hds⟩ := List.forall_mem_cons.mp hds
    have hrest := ih hds (seen ++ [c])
    rw [List.append_assoc] at hrest
    rw [List.foldlM_cons, hnext seen c hc]
    exact hrest

theorem start?_first {c : Char} {n : PartialNumber} (h : start? c = some n) :
    isBlank c = false ∧ c ≠ ']' := by
  constructor
  · rw [Bool.eq_false_iff]
    intro hc
    simp only [isBlank, Bool.or_eq_true, beq_iff_eq] at hc
    rcases hc with ((rfl | rfl) | rfl) | rfl <;> cases h
  · rintro rfl
    cases h

def begin? : List Char → Option PartialNumber
  | [] => none
  | c :: cs => (start? c).bind fun n => cs.foldlM extend? n

theorem begin?_append {cs ds : List Char} {n : PartialNumber} (h : begin? cs = some n) :
    begin? (cs ++ ds) = ds.foldlM extend? n := by
  cases cs with
  | nil => cases h
  | cons c cs =>
    obtain ⟨n₀, hstart, h⟩ := Option.bind_eq_some_iff.mp h
    rw [List.cons_append, begin?, hstart, Option.bind_some, List.foldlM_append, h]
    rfl

section
variable {negative : Bool} {whole : List Char} {fraction : Option (List Char)}

theorem begin?_whole (h : WholeDigits whole) (negative : Bool) :
    ∃ phase ∈ [NumberPhase.zero, .whole],
      begin? ((if negative then ['-'] else []) ++ whole) =
        some ⟨phase, ⟨negative, whole, none, none⟩⟩ := by
  obtain ⟨⟨hne, hdigits⟩, hzero⟩ := h
  cases whole with
  | nil => exact absurd rfl hne
  | cons c ds =>
    obtain ⟨hc, hds⟩ := List.forall_mem_cons.mp hdigits
    -- A leading zero stands alone, so no digit follows it.
    by_cases hc0 : c = '0'
    · subst hc0
      obtain rfl : ds = [] := (List.cons.inj (hzero rfl)).2
      exact ⟨.zero, by simp, by cases negative <;> rfl⟩
    · have hcollect : ∀ seen c, isDigit c = true →
          extend? ⟨.whole, ⟨negative, seen, none, none⟩⟩ c =
            some ⟨.whole, ⟨negative, seen ++ [c], none, none⟩⟩ := fun seen c hc => by
        simp [extend?, next, hc, addWhole]
      have hrest := foldlM_digits hcollect hds [c]
      refine ⟨.whole, by simp, ?_⟩
      cases negative with
      | true =>
        have hfirst : extend? ⟨.sign, ⟨true, [], none, none⟩⟩ c =
            some ⟨.whole, ⟨true, [c], none, none⟩⟩ := by
          simp [extend?, next, hc, hc0, addWhole]
        change List.foldlM extend? ⟨.sign, ⟨true, [], none, none⟩⟩ (c :: ds) = _
        rw [List.foldlM_cons, hfirst]
        exact hrest
      | false =>
        have hsign : c ≠ '-' := by
          rintro rfl
          cases hc
        have hfirst : start? c = some ⟨.whole, ⟨false, [c], none, none⟩⟩ := by
          simp [start?, hc, hc0, hsign]
        change (start? c).bind _ = _
        rw [hfirst]
        exact hrest

theorem foldlM_fraction {phase : NumberPhase} (hphase : phase ∈ [NumberPhase.zero, .whole])
    {fs : List Char} (h : SpellsFraction fraction fs) :
    ∃ phase' ∈ [NumberPhase.zero, .whole, .fraction],
      fs.foldlM extend? ⟨phase, ⟨negative, whole, none, none⟩⟩ =
        some ⟨phase', ⟨negative, whole, fraction, none⟩⟩ := by
  cases h with
  | none => exact ⟨phase, List.mem_append_left [NumberPhase.fraction] hphase, rfl⟩
  | @some ds hds =>
    have hpoint : extend? ⟨phase, ⟨negative, whole, none, none⟩⟩ '.' =
        some ⟨.point, ⟨negative, whole, none, none⟩⟩ := by
      rcases List.mem_pair.mp hphase with rfl | rfl <;> rfl
    have hcollect : ∀ seen c, isDigit c = true →
        extend? ⟨.fraction, ⟨negative, whole, some seen, none⟩⟩ c =
          some ⟨.fraction, ⟨negative, whole, some (seen ++ [c]), none⟩⟩ := fun seen c hc => by
      simp [extend?, next, hc, addFraction]
    refine ⟨.fraction, by simp, ?_⟩
    rw [List.foldlM_cons, hpoint]
    obtain ⟨hne, hdigits⟩ := hds
    cases ds with
    | nil => exact absurd rfl hne
    | cons d ds =>
      obtain ⟨hd, hds⟩ := List.forall_mem_cons.mp hdigits
      have hfirst : extend? ⟨.point, ⟨negative, whole, none, none⟩⟩ d =
          some ⟨.fraction, ⟨negative, whole, some [d], none⟩⟩ := by
        simp [extend?, next, hd, addFraction]
      change List.foldlM extend? ⟨.point, ⟨negative, whole, none, none⟩⟩ (d :: ds) = _
      rw [List.foldlM_cons, hfirst]
      exact foldlM_digits hcollect hds [d]

theorem foldlM_exponentDigits {phase : NumberPhase} {sign : Bool} {exponent : Option Exponent}
    (hphase : phase = .mark ∧ exponent = none ∧ sign = false ∨
      phase = .markSign ∧ exponent = some ⟨sign, []⟩) {ds : List Char} (hds : Digits ds) :
    ds.foldlM extend? ⟨phase, ⟨negative, whole, fraction, exponent⟩⟩ =
      some ⟨.exponent, ⟨negative, whole, fraction, some ⟨sign, ds⟩⟩⟩ := by
  have hcollect : ∀ seen c, isDigit c = true →
      extend? ⟨.exponent, ⟨negative, whole, fraction, some ⟨sign, seen⟩⟩⟩ c =
        some ⟨.exponent, ⟨negative, whole, fraction, some ⟨sign, seen ++ [c]⟩⟩⟩ :=
    fun seen c hc => by simp [extend?, next, hc, addExponent]
  obtain ⟨hne, hdigits⟩ := hds
  cases ds with
  | nil => exact absurd rfl hne
  | cons d ds =>
    obtain ⟨hd, hds⟩ := List.forall_mem_cons.mp hdigits
    have hfirst : extend? ⟨phase, ⟨negative, whole, fraction, exponent⟩⟩ d =
        some ⟨.exponent, ⟨negative, whole, fraction, some ⟨sign, [d]⟩⟩⟩ := by
      rcases hphase with ⟨rfl, rfl, rfl⟩ | ⟨rfl, rfl⟩ <;> simp [extend?, next, hd, addExponent]
    rw [List.foldlM_cons, hfirst]
    exact foldlM_digits hcollect hds [d]

theorem foldlM_exponent {phase : NumberPhase}
    (hphase : phase ∈ [NumberPhase.zero, .whole, .fraction]) {exponent : Option Exponent}
    {es : List Char} (h : SpellsExponent exponent es) :
    ∃ phase', phase'.final = true ∧
      es.foldlM extend? ⟨phase, ⟨negative, whole, fraction, none⟩⟩ =
        some ⟨phase', ⟨negative, whole, fraction, exponent⟩⟩ := by
  have hmark : ∀ mark, isMark mark = true →
      extend? ⟨phase, ⟨negative, whole, fraction, none⟩⟩ mark =
        some ⟨.mark, ⟨negative, whole, fraction, none⟩⟩ := by
    intro mark hm
    rw [isMark, Bool.or_eq_true, beq_iff_eq, beq_iff_eq] at hm
    simp only [List.mem_cons, List.not_mem_nil, or_false] at hphase
    rcases hm with rfl | rfl <;> rcases hphase with rfl | rfl | rfl <;> rfl
  cases h with
  | none =>
    refine ⟨phase, ?_, rfl⟩
    simp only [List.mem_cons, List.not_mem_nil, or_false] at hphase
    rcases hphase with rfl | rfl | rfl <;> rfl
  | unsigned hm hds =>
    refine ⟨.exponent, rfl, ?_⟩
    rw [List.foldlM_cons, hmark _ hm]
    exact foldlM_exponentDigits (.inl ⟨rfl, rfl, rfl⟩) hds
  | plus hm hds | minus hm hds =>
    refine ⟨.exponent, rfl, ?_⟩
    rw [List.foldlM_cons, hmark _ hm]
    exact foldlM_exponentDigits (.inr ⟨rfl, rfl⟩) hds

theorem begin?_number {l : NumberLiteral} {cs : List Char} (h : SpellsNumber l cs) :
    ∃ phase, phase.final = true ∧ begin? cs = some ⟨phase, l⟩ := by
  obtain ⟨hwhole, hfraction, hexponent⟩ := h
  obtain ⟨p, hp, hbegin⟩ := begin?_whole hwhole l.negative
  obtain ⟨p', hp', hfraction⟩ := foldlM_fraction hp hfraction
  obtain ⟨p'', hfinal, hexponent⟩ := foldlM_exponent hp' hexponent
  refine ⟨p'', hfinal, ?_⟩
  rw [List.append_assoc, begin?_append hbegin, List.foldlM_append, hfraction]
  exact hexponent

end

end PartialNumber

/-- What may follow a number: nothing, or a character that ends it. -/
def Delimited (cs : List Char) : Prop :=
  ∀ c ∈ cs.head?, c ∈ [' ', '\n', '\t', '\r', ',', ']', '\x7d']

theorem Delimited.blanks {cs rest : List Char} (hcs : Blanks cs) (h : Delimited rest) :
    Delimited (cs ++ rest) := by
  cases cs with
  | nil => exact h
  | cons c cs =>
    have hc : isBlank c = true := hcs c List.mem_cons_self
    simp only [isBlank, Bool.or_eq_true, beq_iff_eq] at hc
    intro d hd
    obtain rfl := Option.some.inj hd
    rcases hc with ((rfl | rfl) | rfl) | rfl <;> decide

theorem PartialNumber.next_delimiter {n : PartialNumber} (hn : n.phase.final = true) {c : Char}
    (hc : c ∈ [' ', '\n', '\t', '\r', ',', ']', '\x7d']) : n.next c = .stop := by
  obtain ⟨phase, literal⟩ := n
  simp only [List.mem_cons, List.not_mem_nil, or_false] at hc
  rcases hc with rfl | rfl | rfl | rfl | rfl | rfl | rfl <;> cases phase <;> first | rfl | cases hn

namespace Machine

variable {α : Type} {b : Builder α} {frames : List (Frame α)} {cs : List Char}

theorem beginValue_number {c : Char} {n : PartialNumber} (h : PartialNumber.start? c = some n) :
    beginValue b frames c = .ok ⟨frames, .number n⟩ := by
  unfold beginValue
  split
  case h_7 => rw [h]
  all_goals cases h

theorem finishNumber_eq {n : PartialNumber} (hn : n.phase.final = true)
    (frames : List (Frame α)) (depth : Nat) :
    finishNumber b frames n = (b.build (.number n.literal) depth).bind (finish b frames) := by
  rw [finishNumber, PartialNumber.number?, if_pos hn, Builder.build]
  cases Number.ofLiteral? n.literal with
  | none => rfl
  | some number =>
    dsimp only
    cases b.number number <;> rfl

theorem answer_number {n : PartialNumber} (hn : n.phase.final = true) {rest : List Char}
    (hrest : Delimited rest) (depth : Nat) :
    answer b ⟨frames, .number n⟩ rest =
      (b.build (.number n.literal) depth).bind (deliver b frames rest) := by
  have hfinish := finishNumber_eq (b := b) hn frames depth
  -- At the end of the text the result takes the number, before a delimiter the next step does.
  cases rest with
  | nil =>
    simp only [answer_nil, result, hfinish]
    cases b.build (.number n.literal) depth with
    | error fault => rfl
    | ok value =>
      change _ = (finish b frames value).bind (result b)
      cases h : finish b frames value with
      | error fault => simp only [Except.bind, h]
      | ok m =>
        rcases finish_ok h with hmode | rfl
        · obtain ⟨frames', mode⟩ := m
          obtain rfl : mode = .next := hmode
          simp only [Except.bind, h, result]
        · simp only [Except.bind, h, result]
  | cons c rest =>
    rw [answer_cons]
    simp only [step, PartialNumber.next_delimiter hn (hrest c rfl), hfinish]
    cases b.build (.number n.literal) depth with
    | error fault => rfl
    | ok value =>
      change _ = (finish b frames value).bind fun m => answer b m (c :: rest)
      cases h : finish b frames value with
      | error fault => simp only [Except.bind, h]
      | ok m => simp only [Except.bind, h, answer_cons, step_of_finish h]

theorem step_value {c : Char} (hc : isBlank c = false) :
    step b ⟨frames, .value⟩ c = beginValue b frames c := by
  simp [step, structural, hc]

theorem answer_spelledNumber {l : NumberLiteral} (h : SpellsNumber l cs) {rest : List Char}
    (hrest : Delimited rest) (depth : Nat) :
    answer b ⟨frames, .value⟩ (cs ++ rest) =
      (b.build (.number l) depth).bind (deliver b frames rest) := by
  obtain ⟨phase, hfinal, hbegin⟩ := PartialNumber.begin?_number h
  cases cs with
  | nil => cases hbegin
  | cons c cs =>
    obtain ⟨n, hstart, hextend⟩ := Option.bind_eq_some_iff.mp hbegin
    have hblank : isBlank c = false := (PartialNumber.start?_first hstart).1
    have hstep : ∀ n c n', PartialNumber.extend? n c = some n' →
        step b ⟨frames, .number n⟩ c = .ok ⟨frames, .number n'⟩ := fun n c n' hn => by
      simp only [step, PartialNumber.extend?_eq_some.mp hn]
    rw [List.cons_append, answer_cons, step_value hblank, beginValue_number hstart]
    change answer b ⟨frames, .number n⟩ (cs ++ rest) = _
    rw [answer_foldlM hstep hextend]
    exact answer_number hfinal hrest depth

theorem answer_leaf {D : Document} (h : SpellsLeaf D cs) {rest : List Char}
    (hrest : Delimited rest) (depth : Nat) :
    answer b ⟨frames, .value⟩ (cs ++ rest) =
      (b.build D depth).bind (deliver b frames rest) := by
  cases h with
  | null => exact answer_word rest
  | trueWord => exact answer_word rest
  | falseWord => exact answer_word rest
  | number h => exact answer_spelledNumber h hrest depth
  | @text s cs h =>
    have hquoted : '"' :: cs ++ ['"'] ++ rest = '"' :: (cs ++ '"' :: rest) := by simp
    rw [hquoted]
    exact answer_quoted h rest

end Machine

-- ---------------------------------------------------------------------------
-- Documents
-- ---------------------------------------------------------------------------

theorem Delimited.cons {c : Char} (hc : c ∈ [',', ']', '\x7d']) (rest : List Char) :
    Delimited (c :: rest) := by
  intro d hd
  obtain rfl := Option.some.inj hd
  exact List.mem_append_right [' ', '\n', '\t', '\r'] hc

theorem SpellsLeaf.first {D : Document} {cs : List Char} (h : SpellsLeaf D cs) :
    ∃ c post, cs = c :: post ∧ isBlank c = false ∧ c ≠ ']' := by
  cases h with
  | number h =>
    obtain ⟨phase, -, hbegin⟩ := PartialNumber.begin?_number h
    cases cs with
    | nil => cases hbegin
    | cons c cs =>
      obtain ⟨n, hstart, -⟩ := Option.bind_eq_some_iff.mp hbegin
      exact ⟨c, cs, rfl, PartialNumber.start?_first hstart⟩
  | _ => exact ⟨_, _, rfl, rfl, by decide⟩

theorem Spells.first {D : Document} {cs : List Char} (h : Spells D cs) :
    ∃ pre c post, cs = pre ++ c :: post ∧ Blanks pre ∧ isBlank c = false ∧ c ≠ ']' := by
  cases h with
  | @leaf _ pre cs post hleaf hpre hpost =>
    obtain ⟨c, tail, rfl, hc⟩ := hleaf.first
    exact ⟨pre, c, tail ++ post, by simp, hpre, hc⟩
  | @array items parts pre gap post _ hpre _ _ =>
    exact ⟨pre, '[', gap ++ (separate parts ++ ']' :: post), by simp, hpre, rfl, by decide⟩
  | @object entries keys values pre gap post _ _ hpre _ _ =>
    exact ⟨pre, '\x7b', gap ++ (separate (List.zipWith spellEntry keys values) ++ '\x7d' :: post),
      by simp, hpre, rfl, by decide⟩

namespace Machine

variable {α : Type} {b : Builder α}

variable (b) in
/-- Wherever a value may stand, a text that spells the document is read as it is built. -/
def Reads (D : Document) : Prop :=
  ∀ {cs : List Char}, Spells D cs → ∀ (frames : List (Frame α)) {rest : List Char},
    Delimited rest → answer b ⟨frames, .value⟩ (cs ++ rest) =
      (b.build D (maxDepth - frames.length)).bind (deliver b frames rest)

section
variable {frames : List (Frame α)} {rest : List Char}

theorem answer_element {built : List α} {D : Document} {cs : List Char} (h : Spells D cs) :
    answer b ⟨.array built :: frames, .element⟩ (cs ++ rest) =
      answer b ⟨.array built :: frames, .value⟩ (cs ++ rest) := by
  obtain ⟨pre, c, post, rfl, hpre, hc, hend⟩ := h.first
  have hstep : step b ⟨.array built :: frames, .element⟩ c =
      step b ⟨.array built :: frames, .value⟩ c := by
    simp [step, structural, hc, hend]
  rw [List.append_assoc, answer_blanks (fun _ => rfl) hpre, answer_blanks (fun _ => rfl) hpre,
    List.cons_append, answer_cons, answer_cons, hstep]

theorem separate_eq_append (part : List Char) (parts : List (List Char)) :
    ∃ tail, separate (part :: parts) = part ++ tail := by
  cases parts with
  | nil => exact ⟨[], (List.append_nil part).symm⟩
  | cons next parts => exact ⟨',' :: separate (next :: parts), rfl⟩

theorem deliver_comma (built : List α) (value : α) :
    deliver b (.array built :: frames) (',' :: rest) value =
      answer b ⟨.array (value :: built) :: frames, .value⟩ rest := rfl

theorem deliver_bracket (built : List α) (value : α) :
    deliver b (.array built :: frames) (']' :: rest) value =
      deliver b frames rest (b.array (built.reverse ++ [value])) := by
  rw [← List.reverse_cons]
  change answer b ⟨.array (value :: built) :: frames, .next⟩ (']' :: rest) = _
  rw [answer_cons]
  rfl

theorem separate_append (part next : List Char) (parts : List (List Char)) :
    separate (part :: next :: parts) ++ rest =
      part ++ ',' :: (separate (next :: parts) ++ rest) := by
  simp [separate]

theorem answer_items {items : List Document} {parts : List (List Char)}
    (hspell : List.Forall₂ Spells items parts) (hne : items ≠ [])
    (hreads : ∀ item ∈ items, Reads b item) (built : List α) :
    answer b ⟨.array built :: frames, .value⟩ (separate parts ++ ']' :: rest) =
      (b.buildItems items (maxDepth - (frames.length + 1))).bind fun values =>
        deliver b frames rest (b.array (built.reverse ++ values)) := by
  induction hspell generalizing built with
  | nil => exact absurd rfl hne
  | @cons item part items parts hitem hitems ih =>
    rw [List.forall_mem_cons] at hreads
    obtain ⟨hfirst, hreads⟩ := hreads
    rw [Builder.buildItems, except_bind_assoc]
    cases hitems with
    | nil =>
      rw [separate, hfirst hitem _ (.cons (by simp) rest)]
      congr
      funext value
      exact deliver_bracket built value
    | @cons next part' items parts hnext hitems =>
      rw [separate_append, hfirst hitem _ (.cons (by simp) _)]
      congr
      funext value
      rw [deliver_comma, ih (by simp) hreads, except_map_bind, List.reverse_cons]
      congr
      funext values
      rw [List.append_assoc]
      rfl

theorem answer_key {mode : Mode α} (hmode : mode = .member ∨ mode = .key)
    {built : List (String × α)} {old key : String} {cs : List Char} (h : SpellsKey key cs) :
    answer b ⟨.object built old :: frames, mode⟩ (cs ++ ':' :: rest) =
      answer b ⟨.object built key :: frames, .value⟩ rest := by
  cases h with
  | @quoted pre cs post htext hpre hpost =>
    have hskip : ∀ c, step b ⟨.object built old :: frames, mode⟩ c =
        structural b ⟨.object built old :: frames, mode⟩ c := by
      rcases hmode with rfl | rfl <;> exact fun _ => rfl
    have hquote : step b ⟨.object built old :: frames, mode⟩ '"' =
        .ok ⟨.object built old :: frames, .keyText .start⟩ := by
      rcases hmode with rfl | rfl <;> rfl
    have hsplit : pre ++ '"' :: cs ++ '"' :: post ++ ':' :: rest =
        pre ++ '"' :: (cs ++ '"' :: (post ++ ':' :: rest)) := by simp
    rw [hsplit, answer_blanks hskip hpre, answer_cons, hquote]
    change answer b ⟨.object built old :: frames, .keyText .start⟩ _ = _
    rw [answer_quotedKey htext, answer_blanks (fun _ => rfl) hpost]
    rfl

theorem deliver_entry (built : List (String × α)) (key : String) (value : α) :
    deliver b (.object built key :: frames) (',' :: rest) value =
      (b.entry built key value).bind fun built =>
        answer b ⟨.object built key :: frames, .key⟩ rest := by
  rw [deliver, finish]
  cases b.entry built key value <;> rfl

theorem deliver_brace (built : List (String × α)) (key : String) (value : α) :
    deliver b (.object built key :: frames) ('\x7d' :: rest) value =
      (b.entry built key value).bind fun built => deliver b frames rest (b.object built) := by
  rw [deliver, finish]
  cases b.entry built key value with
  | error fault => rfl
  | ok built =>
    change answer b ⟨.object built key :: frames, .next⟩ ('\x7d' :: rest) = _
    rw [answer_cons]
    rfl

theorem answer_entry {built : List (String × α)} {old key : String} {D : Document}
    {ks vs : List Char} (hkey : SpellsKey key ks) (hvalue : Spells D vs) (hreads : Reads b D)
    {mode : Mode α} (hmode : mode = .member ∨ mode = .key) (hrest : Delimited rest) :
    answer b ⟨.object built old :: frames, mode⟩ (spellEntry ks vs ++ rest) =
      (b.build D (maxDepth - (frames.length + 1))).bind
        (deliver b (.object built key :: frames) rest) := by
  have hsplit : spellEntry ks vs ++ rest = ks ++ ':' :: (vs ++ rest) := by simp [spellEntry]
  rw [hsplit, answer_key hmode hkey]
  exact hreads hvalue _ hrest

theorem answer_entries {entries : List (String × Document)} {keys values : List (List Char)}
    (hkeys : List.Forall₂ SpellsKey (entries.map Prod.fst) keys)
    (hvalues : List.Forall₂ Spells (entries.map Prod.snd) values) (hne : entries ≠ [])
    (hreads : ∀ entry ∈ entries, Reads b entry.2) {mode : Mode α}
    (hmode : mode = .member ∨ mode = .key) (built : List (String × α)) (old : String) :
    answer b ⟨.object built old :: frames, mode⟩
        (separate (List.zipWith spellEntry keys values) ++ '\x7d' :: rest) =
      (b.buildEntries entries (maxDepth - (frames.length + 1)) built).bind fun built =>
        deliver b frames rest (b.object built) := by
  induction entries generalizing keys values mode built old with
  | nil => exact absurd rfl hne
  | cons entry entries ih =>
    obtain ⟨key, D⟩ := entry
    rw [List.forall_mem_cons] at hreads
    obtain ⟨hfirst, hreads⟩ := hreads
    rw [List.map_cons] at hkeys hvalues
    cases hkeys with | @cons _ ks _ keys hkey hkeys =>
    cases hvalues with | @cons _ vs _ values hvalue hvalues =>
    rw [Builder.buildEntries, except_bind_assoc]
    cases entries with
    | nil =>
      cases hkeys
      change answer b _ (spellEntry ks vs ++ '\x7d' :: rest) = _
      rw [answer_entry hkey hvalue hfirst hmode (.cons (by simp) rest)]
      congr
      funext value
      rw [deliver_brace, except_bind_assoc]
      rfl
    | cons next entries =>
      -- A comma follows the entry, and after a comma the reader is waiting for a key only.
      rw [List.map_cons] at hkeys hvalues
      cases hkeys with | @cons _ ks' _ keys hkey' hkeys =>
      cases hvalues with | @cons _ vs' _ values hvalue' hvalues =>
      rw [List.zipWith_cons_cons, List.zipWith_cons_cons, separate_append,
        answer_entry hkey hvalue hfirst hmode (.cons (by simp) _)]
      congr
      funext value
      rw [deliver_entry, except_bind_assoc]
      congr
      funext built
      exact ih (.cons hkey' hkeys) (.cons hvalue' hvalues) (by simp) hreads (.inr rfl) built key

theorem openFrame_eq (frame : Frame α) (mode : Mode α) :
    openFrame frames frame mode =
      match maxDepth - frames.length with
      | 0 => .error .malformed
      | _ + 1 => .ok ⟨frame :: frames, mode⟩ := by
  unfold openFrame
  by_cases h : frames.length < maxDepth
  · obtain ⟨depth, hdepth⟩ := Nat.exists_eq_add_of_lt h
    rw [if_pos h, show maxDepth - frames.length = depth + 1 by omega]
  · rw [if_neg h, show maxDepth - frames.length = 0 by omega]
    rfl

theorem answer_padded {D : Document} {pre cs post : List Char} (h : SpellsLeaf D cs)
    (hpre : Blanks pre) (hpost : Blanks post) (hrest : Delimited rest) (depth : Nat) :
    answer b ⟨frames, .value⟩ (pre ++ cs ++ post ++ rest) =
      (b.build D depth).bind (deliver b frames rest) := by
  have hsplit : pre ++ cs ++ post ++ rest = pre ++ (cs ++ (post ++ rest)) := by simp
  rw [hsplit, answer_blanks (fun _ => rfl) hpre, answer_leaf h (hrest.blanks hpost) depth,
    deliver_blanks hpost]

end

theorem reads_array {items : List Document} (hreads : ∀ item ∈ items, Reads b item) :
    Reads b (.array items) := by
  intro cs h frames rest hrest
  cases h with
  | leaf h => cases h
  | @array _ parts pre gap post heach hpre hgap hpost =>
    have hsplit : pre ++ '[' :: gap ++ separate parts ++ ']' :: post ++ rest =
        pre ++ '[' :: (gap ++ (separate parts ++ ']' :: (post ++ rest))) := by simp
    have hstep : step b ⟨frames, .value⟩ '[' = openFrame frames (.array []) .element := rfl
    rw [hsplit, answer_blanks (fun _ => rfl) hpre, answer_cons, hstep, openFrame_eq]
    cases hdepth : maxDepth - frames.length with
    | zero => rfl
    | succ depth =>
      change answer b ⟨.array [] :: frames, .element⟩ _ = _
      rw [answer_blanks (fun _ => rfl) hgap, ← deliver_blanks hpost rest, Builder.build]
      cases heach with
      | nil =>
        change answer b _ (']' :: (post ++ rest)) = _
        rw [answer_cons]
        rfl
      | @cons item part items parts hitem hitems =>
        obtain ⟨tail, htail⟩ := separate_eq_append part parts
        rw [htail, List.append_assoc, answer_element hitem, ← List.append_assoc, ← htail,
          answer_items (.cons hitem hitems) (by simp) hreads,
          show maxDepth - (frames.length + 1) = depth by omega]
        cases b.buildItems (item :: items) depth <;> rfl

theorem reads_object {entries : List (String × Document)}
    (hreads : ∀ entry ∈ entries, Reads b entry.2) : Reads b (.object entries) := by
  intro cs h frames rest hrest
  cases h with
  | leaf h => cases h
  | @object _ keys values pre gap post hkeys hvalues hpre hgap hpost =>
    have hsplit : pre ++ '\x7b' :: gap ++ separate (List.zipWith spellEntry keys values) ++
          '\x7d' :: post ++ rest =
        pre ++ '\x7b' :: (gap ++ (separate (List.zipWith spellEntry keys values) ++
          '\x7d' :: (post ++ rest))) := by simp
    have hstep : step b ⟨frames, .value⟩ '\x7b' = openFrame frames (.object [] "") .member := rfl
    rw [hsplit, answer_blanks (fun _ => rfl) hpre, answer_cons, hstep, openFrame_eq]
    cases hdepth : maxDepth - frames.length with
    | zero => rfl
    | succ depth =>
      change answer b ⟨.object [] "" :: frames, .member⟩ _ = _
      rw [answer_blanks (fun _ => rfl) hgap, ← deliver_blanks hpost rest, Builder.build]
      cases entries with
      | nil =>
        cases hkeys
        change answer b _ ('\x7d' :: (post ++ rest)) = _
        rw [answer_cons]
        rfl
      | cons entry entries =>
        rw [answer_entries hkeys hvalues (by simp) hreads (.inl rfl),
          show maxDepth - (frames.length + 1) = depth by omega]
        cases b.buildEntries (entry :: entries) depth [] <;> rfl

theorem reads (D : Document) : Reads b D := by
  induction D using Document.induction with
  | array items ih => exact reads_array ih
  | object entries ih => exact reads_object ih
  | _ =>
    intro cs h frames rest hrest
    cases h with
    | leaf h hpre hpost => exact answer_padded h hpre hpost hrest _

end Machine

/-- A text that spells a document is read as the document is built. -/
theorem read_spells {α : Type} (b : Builder α) {text : String} {D : Document}
    (h : Spells D text.toList) : read b text = b.build D maxDepth := by
  have hend : Machine.deliver b [] [] = .ok := rfl
  have hdelimited : Delimited [] := nofun
  rw [Machine.read_eq_answer, ← List.append_nil text.toList]
  change Machine.answer b ⟨[], .value⟩ (text.toList ++ []) = _
  rw [Machine.reads D h [] hdelimited, hend]
  cases b.build D maxDepth <;> rfl

end SolverConfig.Json
