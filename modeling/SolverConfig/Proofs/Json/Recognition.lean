import SolverConfig.Proofs.Json.Reading

/-!
# Recognising documents

Only texts that spell a document are read. What the machine has seen of a text is always the
beginning of a spelling that fits its state, one character after another.
-/

namespace SolverConfig.Json

-- ---------------------------------------------------------------------------
-- Strings
-- ---------------------------------------------------------------------------

theorem SpellsText.append {content more cs ds : List Char} (h : SpellsText content cs)
    (hmore : SpellsText more ds) : SpellsText (content ++ more) (cs ++ ds) := by
  induction h with
  | nil => exact hmore
  | cons hc _ ih =>
    rw [List.append_assoc]
    exact .cons hc ih

theorem SpellsText.push {content cs ds : List Char} {c : Char}
    (h : SpellsText content.reverse cs) (hc : SpellsChar c ds) :
    SpellsText (c :: content).reverse (cs ++ ds) := by
  have hlast : SpellsText [c] (ds ++ []) := .cons hc .nil
  rw [List.append_nil] at hlast
  rw [List.reverse_cons]
  exact h.append hlast

/-- The digits of a code unit that have been read, with how many are to follow besides the next. -/
inductive SpellsDigits : Nat → Nat → List Char → Prop
  | none : SpellsDigits 3 0 []
  | more {n value d : Nat} {cs : List Char} {c : Char} (before : SpellsDigits (n + 1) value cs)
      (digit : hexValue? c = some d) : SpellsDigits n (16 * value + d) (cs ++ [c])

theorem SpellsDigits.missing_le {missing value : Nat} {cs : List Char}
    (h : SpellsDigits missing value cs) : missing ≤ 3 := by
  induction h with
  | none => exact Nat.le_refl 3
  | more _ _ ih => exact Nat.le_of_succ_le ih

theorem SpellsDigits.last {value d : Nat} {cs : List Char} {c : Char}
    (h : SpellsDigits 0 value cs) (hd : hexValue? c = some d) :
    SpellsUnit (16 * value + d) (cs ++ [c]) := by
  cases h with | more h h₃ =>
  cases h with | more h h₂ =>
  cases h with | more h h₁ =>
  cases h with
  | none =>
    rw [Nat.mul_zero, Nat.zero_add]
    exact .digits h₁ h₂ h₃ hd
  | more h _ => exact absurd h.missing_le (by decide)

inductive SpellsHigh : Option Nat → List Char → Prop
  | none : SpellsHigh none []
  | some {n : Nat} {cs : List Char} (unit : SpellsUnit n cs) (high : PartialText.isHigh n = true) :
      SpellsHigh (some n) ('\\' :: 'u' :: cs)

namespace PartialText

/-- What has been read of a string, up to its last character or escape and after. -/
inductive Begins : PartialText → List Char → Prop
  | plain {content cs : List Char} (text : SpellsText content.reverse cs) :
      Begins ⟨.plain, content⟩ cs
  | escape {content cs : List Char} (text : SpellsText content.reverse cs) :
      Begins ⟨.escape, content⟩ (cs ++ ['\\'])
  | unit {content cs us ds : List Char} {high : Option Nat} {missing value : Nat}
      (text : SpellsText content.reverse cs) (first : SpellsHigh high us)
      (digits : SpellsDigits missing value ds) :
      Begins ⟨.unit high missing value, content⟩ (cs ++ (us ++ '\\' :: 'u' :: ds))
  | pair {content cs us : List Char} {high : Nat} (text : SpellsText content.reverse cs)
      (first : SpellsHigh (some high) us) : Begins ⟨.pair high, content⟩ (cs ++ us)
  | pairMark {content cs us : List Char} {high : Nat} (text : SpellsText content.reverse cs)
      (first : SpellsHigh (some high) us) : Begins ⟨.pairMark high, content⟩ (cs ++ (us ++ ['\\']))

theorem begins_start : Begins start [] := .plain .nil

section
variable {t t' : PartialText} {cs : List Char} {c : Char}

theorem extend_ite {p : Bool} {extended : PartialText} {others : TextStep} :
    (if p then .extend extended else others) = .extend t' ↔
      p = true ∧ extended = t' ∨ p = false ∧ others = .extend t' := by
  cases p <;> simp

theorem begins_addUnit {p : TextPhase} {content us ds : List Char} {high : Option Nat} {n : Nat}
    (htext : SpellsText content.reverse cs) (hfirst : SpellsHigh high us) (hunit : SpellsUnit n ds)
    (h : addUnit ⟨p, content⟩ high n = .extend t') :
    Begins t' (cs ++ (us ++ '\\' :: 'u' :: ds)) := by
  cases hfirst with
  | none =>
    rcases extend_ite.mp h with ⟨hhigh, rfl⟩ | ⟨hhigh, h⟩
    · exact .pair htext (.some hunit hhigh)
    split at h
    · cases h
    · rename_i hlow
      obtain rfl := TextStep.extend.inj h
      rw [Bool.not_eq_true] at hlow
      exact .plain (htext.push (.unit hunit hhigh hlow))
  | some hhigh hisHigh =>
    rcases extend_ite.mp h with ⟨hlow, rfl⟩ | ⟨-, ⟨⟩⟩
    exact .plain (htext.push (.pair hhigh hunit hisHigh hlow))

theorem next_extend (h : Begins t cs) (ht : t.next c = .extend t') : Begins t' (cs ++ [c]) := by
  cases h with
  | @plain content cs htext =>
    simp only [next] at ht
    split at ht
    · cases ht
    rename_i hquote
    rcases extend_ite.mp ht with ⟨hc, rfl⟩ | ⟨hbackslash, ht⟩
    · rw [beq_iff_eq.mp hc]
      exact .escape htext
    split at ht
    · cases ht
    · rename_i hprinted
      obtain rfl := TextStep.extend.inj ht
      rw [beq_iff_eq] at hquote
      rw [beq_eq_false_iff_ne] at hbackslash
      exact .plain (htext.push (.plain hquote hbackslash (Nat.not_lt.mp hprinted)))
  | @escape content cs htext =>
    rcases extend_ite.mp ht with ⟨hc, rfl⟩ | ⟨-, ht⟩
    · rw [beq_iff_eq.mp hc, List.append_assoc]
      exact .unit htext .none .none
    split at ht
    · rename_i d hd
      obtain rfl := TextStep.extend.inj ht
      rw [List.append_assoc]
      exact .plain (htext.push (.escape hd))
    · cases ht
  | @unit content cs us ds high missing value htext hfirst hdigits =>
    simp only [next] at ht
    split at ht
    · cases ht
    · rename_i d hd
      have hjoin : cs ++ (us ++ '\\' :: 'u' :: ds) ++ [c] =
          cs ++ (us ++ '\\' :: 'u' :: (ds ++ [c])) := by simp
      rw [hjoin]
      split at ht
      · exact begins_addUnit htext hfirst (hdigits.last hd) ht
      · obtain rfl := TextStep.extend.inj ht
        exact .unit htext hfirst (hdigits.more hd)
  | pair htext hfirst =>
    rcases extend_ite.mp ht with ⟨hc, rfl⟩ | ⟨-, ⟨⟩⟩
    rw [beq_iff_eq.mp hc, List.append_assoc]
    exact .pairMark htext hfirst
  | @pairMark content cs us high htext hfirst =>
    rcases extend_ite.mp ht with ⟨hc, rfl⟩ | ⟨-, ⟨⟩⟩
    have hjoin : cs ++ (us ++ ['\\']) ++ ['u'] = cs ++ (us ++ '\\' :: 'u' :: []) := by simp
    rw [beq_iff_eq.mp hc, hjoin]
    exact .unit htext hfirst .none

theorem next_finish {content : List Char} (h : Begins t cs) (ht : t.next c = .finish content) :
    c = '"' ∧ SpellsText content cs := by
  have haddUnit : ∀ high n, t.addUnit high n ≠ .finish content := by
    intro high n
    cases high <;> simp only [addUnit, push, withPhase] <;> split <;> simp
    split <;> simp
  cases h with
  | plain htext =>
    simp only [next] at ht
    split at ht
    · rename_i hc
      obtain rfl := TextStep.finish.inj ht
      exact ⟨beq_iff_eq.mp hc, htext⟩
    split at ht
    · cases ht
    split at ht <;> cases ht
  | escape htext =>
    simp only [next] at ht
    split at ht
    · cases ht
    · split at ht <;> cases ht
  | unit htext hfirst hdigits =>
    simp only [next] at ht
    split at ht
    · cases ht
    · split at ht
      · exact absurd ht (haddUnit _ _)
      · cases ht
  | pair htext hfirst | pairMark htext hfirst =>
    simp only [next] at ht
    split at ht <;> cases ht

end

end PartialText

-- ---------------------------------------------------------------------------
-- Numbers
-- ---------------------------------------------------------------------------

theorem digits_single {c : Char} (h : PartialNumber.isDigit c = true) : Digits [c] :=
  ⟨List.cons_ne_nil c [], by simpa using h⟩

theorem Digits.push {ds : List Char} {c : Char} (h : Digits ds)
    (hc : PartialNumber.isDigit c = true) : Digits (ds ++ [c]) := by
  refine ⟨by simp, fun d hd => ?_⟩
  rcases List.mem_append.mp hd with hd | hd
  · exact h.2 d hd
  · rw [List.mem_singleton.mp hd]
    exact hc

theorem SpellsExponent.push {e : Exponent} {es : List Char} {c : Char}
    (h : SpellsExponent (some e) es) (hc : PartialNumber.isDigit c = true) :
    SpellsExponent (some { e with digits := e.digits ++ [c] }) (es ++ [c]) := by
  cases h with
  | unsigned hmark hds => exact .unsigned hmark (hds.push hc)
  | plus hmark hds => exact .plus hmark (hds.push hc)
  | minus hmark hds => exact .minus hmark (hds.push hc)

namespace PartialNumber

def signText (negative : Bool) : List Char := if negative then ['-'] else []

/-- What has been read of a number, by the phase that it is in. -/
inductive Begins : PartialNumber → List Char → Prop
  | sign : Begins ⟨.sign, ⟨true, [], none, none⟩⟩ ['-']
  | zero {negative : Bool} :
      Begins ⟨.zero, ⟨negative, ['0'], none, none⟩⟩ (signText negative ++ ['0'])
  | whole {negative : Bool} {ds : List Char} (digits : Digits ds) (first : ds.head? ≠ some '0') :
      Begins ⟨.whole, ⟨negative, ds, none, none⟩⟩ (signText negative ++ ds)
  | point {negative : Bool} {ds : List Char} (whole : WholeDigits ds) :
      Begins ⟨.point, ⟨negative, ds, none, none⟩⟩ (signText negative ++ ds ++ ['.'])
  | fraction {negative : Bool} {ds fs : List Char} (whole : WholeDigits ds) (digits : Digits fs) :
      Begins ⟨.fraction, ⟨negative, ds, some fs, none⟩⟩ (signText negative ++ ds ++ '.' :: fs)
  | mark {negative : Bool} {ds fs : List Char} {fraction : Option (List Char)} {c : Char}
      (whole : WholeDigits ds) (spells : SpellsFraction fraction fs) (isMark : isMark c = true) :
      Begins ⟨.mark, ⟨negative, ds, fraction, none⟩⟩ (signText negative ++ ds ++ fs ++ [c])
  | markSign {negative below : Bool} {ds fs : List Char} {fraction : Option (List Char)}
      {c d : Char} (whole : WholeDigits ds) (spells : SpellsFraction fraction fs)
      (isMark : isMark c = true) (isSign : below = true ∧ d = '-' ∨ below = false ∧ d = '+') :
      Begins ⟨.markSign, ⟨negative, ds, fraction, some ⟨below, []⟩⟩⟩
        (signText negative ++ ds ++ fs ++ [c, d])
  | exponent {negative : Bool} {ds fs es : List Char} {fraction : Option (List Char)}
      {e : Exponent} (whole : WholeDigits ds) (spells : SpellsFraction fraction fs)
      (digits : SpellsExponent (some e) es) :
      Begins ⟨.exponent, ⟨negative, ds, fraction, some e⟩⟩ (signText negative ++ ds ++ fs ++ es)

section
variable {n n' : PartialNumber} {cs : List Char} {c : Char}

theorem wholeDigits_zero : WholeDigits ['0'] := ⟨digits_single rfl, fun _ => rfl⟩

theorem wholeDigits_of_head {ds : List Char} (h : Digits ds) (hhead : ds.head? ≠ some '0') :
    WholeDigits ds := ⟨h, fun hzero => absurd hzero hhead⟩

theorem begins_start? (h : start? c = some n) : Begins n [c] := by
  rw [start?] at h
  split at h
  · rename_i hc
    obtain rfl := Option.some.inj h
    rw [beq_iff_eq.mp hc]
    exact .sign
  split at h
  · rename_i hc
    obtain rfl := Option.some.inj h
    rw [beq_iff_eq.mp hc]
    exact .zero
  split at h
  · rename_i hzero hc
    obtain rfl := Option.some.inj h
    rw [beq_iff_eq] at hzero
    exact .whole (digits_single hc) fun hhead => hzero (Option.some.inj hhead)
  · cases h

theorem spellsNumber_parts {negative : Bool} {ds fs es : List Char}
    {fraction : Option (List Char)} {exponent : Option Exponent} (hwhole : WholeDigits ds)
    (hfraction : SpellsFraction fraction fs) (hexponent : SpellsExponent exponent es) :
    SpellsNumber ⟨negative, ds, fraction, exponent⟩ (signText negative ++ ds ++ fs ++ es) :=
  .parts hwhole hfraction hexponent

theorem spellsNumber_of_begins (h : Begins n cs) (hn : n.phase.final = true) :
    SpellsNumber n.literal cs := by
  cases h with
  | sign | point | mark | markSign => cases hn
  | zero => simpa using spellsNumber_parts wholeDigits_zero .none .none
  | whole hds hfirst => simpa using spellsNumber_parts (wholeDigits_of_head hds hfirst) .none .none
  | fraction hwhole hdigits => simpa using spellsNumber_parts hwhole (.some hdigits) .none
  | exponent hwhole hspells hdigits => exact spellsNumber_parts hwhole hspells hdigits

theorem begins_mark {negative : Bool} {ds : List Char} (h : WholeDigits ds)
    (hc : isMark c = true) :
    Begins ⟨.mark, ⟨negative, ds, none, none⟩⟩ (signText negative ++ ds ++ [c]) := by
  have hmark := @Begins.mark negative _ _ _ _ h .none hc
  rwa [List.append_nil] at hmark

/-- A step that extends a number under a condition, and goes on with others without it. -/
theorem extend_ite {p : Bool} {extended : PartialNumber} {others : NumberStep} :
    (if p then .extend extended else others) = .extend n' ↔
      p = true ∧ extended = n' ∨ p = false ∧ others = .extend n' := by
  cases p <;> simp

theorem begins_afterWhole {phase : NumberPhase} {negative : Bool} {ds : List Char}
    (h : WholeDigits ds)
    (hn : (if c == '.' then
        NumberStep.extend (withPhase ⟨phase, ⟨negative, ds, none, none⟩⟩ .point)
      else if isMark c then .extend (withPhase ⟨phase, ⟨negative, ds, none, none⟩⟩ .mark)
      else .stop) = .extend n') :
    Begins n' (signText negative ++ ds ++ [c]) := by
  rcases extend_ite.mp hn with ⟨hc, rfl⟩ | ⟨-, hn⟩
  · rw [beq_iff_eq.mp hc]
    exact .point h
  rcases extend_ite.mp hn with ⟨hc, rfl⟩ | ⟨-, ⟨⟩⟩
  exact begins_mark h hc

theorem begins_next (h : Begins n cs) (hn : n.next c = .extend n') : Begins n' (cs ++ [c]) := by
  cases h with
  | sign =>
    rcases extend_ite.mp hn with ⟨hc, rfl⟩ | ⟨hzero, hn⟩
    · rw [beq_iff_eq.mp hc]
      exact .zero
    rcases extend_ite.mp hn with ⟨hc, rfl⟩ | ⟨-, ⟨⟩⟩
    rw [beq_eq_false_iff_ne] at hzero
    exact .whole (digits_single hc) fun hhead => hzero (Option.some.inj hhead)
  | zero =>
    -- A digit is refused here, so the phase ends as that of other digits before the point does.
    simp only [next] at hn
    split at hn
    · cases hn
    · exact begins_afterWhole wholeDigits_zero hn
  | @whole negative ds hds hfirst =>
    rcases extend_ite.mp hn with ⟨hc, rfl⟩ | ⟨-, hn⟩
    · rw [List.append_assoc]
      refine .whole (hds.push hc) fun hhead => hfirst ?_
      rwa [List.head?_append_of_ne_nil _ hds.1] at hhead
    · exact begins_afterWhole (wholeDigits_of_head hds hfirst) hn
  | point hwhole =>
    rcases extend_ite.mp hn with ⟨hc, rfl⟩ | ⟨-, ⟨⟩⟩
    rw [List.append_assoc]
    exact .fraction hwhole (digits_single hc)
  | fraction hwhole hdigits =>
    rcases extend_ite.mp hn with ⟨hc, rfl⟩ | ⟨-, hn⟩
    · rw [List.append_assoc]
      exact .fraction hwhole (hdigits.push hc)
    rcases extend_ite.mp hn with ⟨hc, rfl⟩ | ⟨-, ⟨⟩⟩
    exact .mark hwhole (.some hdigits) hc
  | mark hwhole hspells hmark =>
    rcases extend_ite.mp hn with ⟨hc, rfl⟩ | ⟨-, hn⟩
    · rw [List.append_assoc]
      exact .exponent hwhole hspells (.unsigned hmark (digits_single hc))
    rcases extend_ite.mp hn with ⟨hc, rfl⟩ | ⟨-, hn⟩
    · rw [List.append_assoc]
      exact .markSign hwhole hspells hmark (.inl ⟨rfl, beq_iff_eq.mp hc⟩)
    rcases extend_ite.mp hn with ⟨hc, rfl⟩ | ⟨-, ⟨⟩⟩
    rw [List.append_assoc]
    exact .markSign hwhole hspells hmark (.inr ⟨rfl, beq_iff_eq.mp hc⟩)
  | markSign hwhole hspells hmark hsign =>
    rcases extend_ite.mp hn with ⟨hc, rfl⟩ | ⟨-, ⟨⟩⟩
    rw [List.append_assoc]
    rcases hsign with ⟨rfl, rfl⟩ | ⟨rfl, rfl⟩
    · exact .exponent hwhole hspells (.minus hmark (digits_single hc))
    · exact .exponent hwhole hspells (.plus hmark (digits_single hc))
  | exponent hwhole hspells hdigits =>
    rcases extend_ite.mp hn with ⟨hc, rfl⟩ | ⟨-, ⟨⟩⟩
    rw [List.append_assoc]
    exact .exponent hwhole hspells (hdigits.push hc)

end

end PartialNumber

-- ---------------------------------------------------------------------------
-- Documents
-- ---------------------------------------------------------------------------

theorem Blanks.push {cs : List Char} {c : Char} (h : Blanks cs) (hc : isBlank c = true) :
    Blanks (cs ++ [c]) := by
  intro d hd
  rcases List.mem_append.mp hd with hd | hd
  · exact h d hd
  · rw [List.mem_singleton.mp hd]
    exact hc

theorem Spells.of_leaf {D : Document} {pre cs : List Char} (h : SpellsLeaf D cs)
    (hpre : Blanks pre) : Spells D (pre ++ cs) := by
  have hspells := Spells.leaf h hpre blanks_nil
  rwa [List.append_nil] at hspells

theorem Spells.push {D : Document} {cs : List Char} {c : Char} (h : Spells D cs)
    (hc : isBlank c = true) : Spells D (cs ++ [c]) := by
  cases h with
  | leaf hleaf hpre hpost =>
    rw [List.append_assoc]
    exact .leaf hleaf hpre (hpost.push hc)
  | array heach hpre hgap hpost =>
    rw [List.append_assoc, List.cons_append]
    exact .array heach hpre hgap (hpost.push hc)
  | object hkeys heach hpre hgap hpost =>
    rw [List.append_assoc, List.cons_append]
    exact .object hkeys heach hpre hgap (hpost.push hc)

theorem SpellsKey.push {key : String} {cs : List Char} {c : Char} (h : SpellsKey key cs)
    (hc : isBlank c = true) : SpellsKey key (cs ++ [c]) := by
  cases h with
  | quoted htext hpre hpost =>
    rw [List.append_assoc, List.cons_append]
    exact .quoted htext hpre (hpost.push hc)

def listed (parts : List (List Char)) : List Char := parts.flatMap fun part => part ++ [',']

theorem listed_push (parts : List (List Char)) (part : List Char) :
    listed (parts ++ [part]) = listed parts ++ part ++ [','] := by
  simp [listed]

theorem separate_push (parts : List (List Char)) (part : List Char) :
    separate (parts ++ [part]) = listed parts ++ part := by
  induction parts with
  | nil => rfl
  | cons first rest ih =>
    have hcons : separate (first :: (rest ++ [part])) =
        first ++ ',' :: separate (rest ++ [part]) := by
      cases rest <;> rfl
    rw [List.cons_append, hcons, ih]
    simp [listed]

theorem forall₂_push {α β : Type} {R : α → β → Prop} {as : List α} {bs : List β} {a : α} {b : β}
    (h : List.Forall₂ R as bs) (hab : R a b) : List.Forall₂ R (as ++ [a]) (bs ++ [b]) :=
  List.rel_append h (.cons hab .nil)

namespace Machine

variable {α : Type}

mutual

/-- The text up to where a value may begin, the frames being those around it. What has been built in
a frame says nothing of the text, as a builder may make anything of it. -/
inductive Opened : List (Frame α) → List Char → Prop
  | root : Opened [] []
  | array {frames : List (Frame α)} {cs pre gap : List Char} {built : List α}
      {items : List Document} {parts : List (List Char)} (outer : Opened frames cs)
      (before : Blanks pre) (inside : Blanks gap) (each : List.Forall₂ Spells items parts) :
      Opened (.array built :: frames) (cs ++ pre ++ '[' :: gap ++ listed parts)
  | object {frames : List (Frame α)} {cs ks : List Char} {key : String}
      (place : KeyPlace frames cs) (spells : SpellsKey key ks) : Opened frames (cs ++ ks ++ [':'])

inductive KeyPlace : List (Frame α) → List Char → Prop
  | entries {frames : List (Frame α)} {cs pre gap : List Char} {built : List (String × α)}
      {key : String} {entries : List (String × Document)} {keys values : List (List Char)}
      (outer : Opened frames cs) (before : Blanks pre) (inside : Blanks gap)
      (eachKey : List.Forall₂ SpellsKey (entries.map Prod.fst) keys)
      (each : List.Forall₂ Spells (entries.map Prod.snd) values) :
      KeyPlace (.object built key :: frames)
        (cs ++ pre ++ '\x7b' :: gap ++ listed (List.zipWith spellEntry keys values))

end

/-- What has been read outside strings, words and numbers, by the state of the machine. -/
inductive Between : Machine α → List Char → Prop
  | value {frames : List (Frame α)} {cs pre : List Char} (opened : Opened frames cs)
      (before : Blanks pre) : Between ⟨frames, .value⟩ (cs ++ pre)
  | element {frames : List (Frame α)} {cs pre gap : List Char} (outer : Opened frames cs)
      (before : Blanks pre) (inside : Blanks gap) :
      Between ⟨.array [] :: frames, .element⟩ (cs ++ pre ++ '[' :: gap)
  | member {frames : List (Frame α)} {cs pre gap : List Char} {key : String}
      (outer : Opened frames cs) (before : Blanks pre) (inside : Blanks gap) :
      Between ⟨.object [] key :: frames, .member⟩ (cs ++ pre ++ '\x7b' :: gap)
  | key {frames : List (Frame α)} {cs pre : List Char} (place : KeyPlace frames cs)
      (before : Blanks pre) : Between ⟨frames, .key⟩ (cs ++ pre)
  | colon {frames : List (Frame α)} {cs ks : List Char} {key : String}
      (place : KeyPlace frames cs) (spells : SpellsKey key ks) :
      Between ⟨frames, .colon⟩ (cs ++ ks)
  | next {frames : List (Frame α)} {cs ds : List Char} {D : Document} (opened : Opened frames cs)
      (spells : Spells D ds) : Between ⟨frames, .next⟩ (cs ++ ds)
  | done {cs : List Char} {value : α} {D : Document} (spells : Spells D cs) :
      Between ⟨[], .done value⟩ cs

/-- What a machine has read, by the state that it is in. -/
inductive Reached : Machine α → List Char → Prop
  | between {m : Machine α} {cs : List Char} (between : Between m cs) : Reached m cs
  | keyText {frames : List (Frame α)} {cs pre ds : List Char} {t : PartialText}
      (place : KeyPlace frames cs) (before : Blanks pre) (begins : t.Begins ds) :
      Reached ⟨frames, .keyText t⟩ (cs ++ (pre ++ '"' :: ds))
  | text {frames : List (Frame α)} {cs pre ds : List Char} {t : PartialText}
      (opened : Opened frames cs) (before : Blanks pre) (begins : t.Begins ds) :
      Reached ⟨frames, .text t⟩ (cs ++ (pre ++ '"' :: ds))
  | word {frames : List (Frame α)} {cs pre ds rest : List Char} {c : Char} {value : α}
      {D : Document} (opened : Opened frames cs) (before : Blanks pre)
      (leaf : SpellsLeaf D (ds ++ c :: rest)) :
      Reached ⟨frames, .word (c :: rest) value⟩ (cs ++ (pre ++ ds))
  | number {frames : List (Frame α)} {cs pre ds : List Char} {n : PartialNumber}
      (opened : Opened frames cs) (before : Blanks pre) (begins : n.Begins ds) :
      Reached ⟨frames, .number n⟩ (cs ++ (pre ++ ds))

section
variable {b : Builder α} {frames : List (Frame α)} {cs : List Char} {m m' : Machine α}

theorem between_opened (h : Opened frames cs) : Between ⟨frames, .value⟩ cs := by
  have hbetween := Between.value h blanks_nil
  rwa [List.append_nil] at hbetween

theorem between_keyPlace (h : KeyPlace frames cs) : Between ⟨frames, .key⟩ cs := by
  have hbetween := Between.key h blanks_nil
  rwa [List.append_nil] at hbetween

theorem opened_nil (h : Opened ([] : List (Frame α)) cs) : cs = [] := by
  cases h with
  | root => rfl
  | object place _ => cases place

theorem opened_array {built built' : List α} (h : Opened (.array built :: frames) cs) :
    Opened (.array built' :: frames) cs := by
  cases h with
  | array houter hpre hgap heach => exact .array houter hpre hgap heach
  | object place _ => cases place

theorem keyPlace_object {built built' : List (String × α)} {key key' : String}
    (h : KeyPlace (.object built key :: frames) cs) :
    KeyPlace (.object built' key' :: frames) cs := by
  cases h with
  | entries houter hpre hgap hkeys heach => exact .entries houter hpre hgap hkeys heach

theorem opened_object {built built' : List (String × α)} {key key' : String}
    (h : Opened (.object built key :: frames) cs) :
    Opened (.object built' key' :: frames) cs := by
  cases h with
  | object place hkey => exact .object (keyPlace_object place) hkey

section
variable {ds : List Char} {D : Document} (hD : Spells D ds)
include hD

theorem opened_comma {built : List α} (h : Opened (.array built :: frames) cs) :
    Opened (.array built :: frames) (cs ++ ds ++ [',']) := by
  cases h with
  | @array _ cs pre gap _ items parts houter hpre hgap heach =>
    have hjoin : cs ++ pre ++ '[' :: gap ++ listed parts ++ ds ++ [','] =
        cs ++ pre ++ '[' :: gap ++ listed (parts ++ [ds]) := by simp [listed_push]
    rw [hjoin]
    exact .array houter hpre hgap (forall₂_push heach hD)
  | object place _ => cases place

theorem opened_bracket {built : List α} (h : Opened (.array built :: frames) cs) :
    ∃ os es items, Opened frames os ∧ Spells (.array items) es ∧ cs ++ ds ++ [']'] = os ++ es := by
  cases h with
  | @array _ cs pre gap _ items parts houter hpre hgap heach =>
    have hitems : Spells _ (pre ++ '[' :: gap ++ separate (parts ++ [ds]) ++ ']' :: []) :=
      .array (forall₂_push heach hD) hpre hgap blanks_nil
    exact ⟨cs, _, _, houter, hitems, by simp [separate_push]⟩
  | object place _ => cases place

theorem entries_of_opened {built : List (String × α)} {key : String}
    (h : Opened (.object built key :: frames) cs) :
    ∃ os pre gap entries keys values, Opened frames os ∧ Blanks pre ∧ Blanks gap ∧
      List.Forall₂ SpellsKey (List.map Prod.fst entries) keys ∧
      List.Forall₂ Spells (List.map Prod.snd entries) values ∧
      cs ++ ds ++ [','] =
        os ++ pre ++ '\x7b' :: gap ++ listed (List.zipWith spellEntry keys values) ∧
      cs ++ ds = os ++ pre ++ '\x7b' :: gap ++ separate (List.zipWith spellEntry keys values) := by
  cases h with
  | @object _ _ ks key' place hkey =>
    cases place with
    | @entries _ cs pre gap _ _ entries keys values houter hpre hgap hkeys heach =>
      have hlength : keys.length = values.length := by
        rw [← hkeys.length_eq, ← heach.length_eq, List.length_map, List.length_map]
      refine ⟨cs, pre, gap, entries ++ [(key', D)], keys ++ [ks], values ++ [ds], houter, hpre,
        hgap, by simpa using forall₂_push hkeys hkey, by simpa using forall₂_push heach hD, ?_, ?_⟩
      · simp [List.zipWith_append hlength, listed_push, spellEntry]
      · simp [List.zipWith_append hlength, separate_push, spellEntry]

theorem keyPlace_comma {built : List (String × α)} {key : String}
    (h : Opened (.object built key :: frames) cs) :
    KeyPlace (.object built key :: frames) (cs ++ ds ++ [',']) := by
  obtain ⟨os, pre, gap, entries, keys, values, houter, hpre, hgap, hkeys, heach, htext, -⟩ :=
    entries_of_opened hD h
  rw [htext]
  exact .entries houter hpre hgap hkeys heach

theorem opened_brace {built : List (String × α)} {key : String}
    (h : Opened (.object built key :: frames) cs) :
    ∃ os es entries, Opened frames os ∧ Spells (.object entries) es ∧
      cs ++ ds ++ ['\x7d'] = os ++ es := by
  obtain ⟨os, pre, gap, entries, keys, values, houter, hpre, hgap, hkeys, heach, -, htext⟩ :=
    entries_of_opened hD h
  have hentries : Spells _ _ := .object hkeys heach hpre hgap blanks_nil
  exact ⟨os, _, entries, houter, hentries, by simp [htext]⟩

end

theorem between_finish {ds : List Char} {D : Document} {value : α} (h : Opened frames cs)
    (hD : Spells D ds) (hm : finish b frames value = .ok m) : Between m (cs ++ ds) := by
  unfold finish at hm
  split at hm
  · obtain rfl := Except.ok.inj hm
    rw [opened_nil h]
    exact .done hD
  · obtain rfl := Except.ok.inj hm
    exact .next (opened_array h) hD
  · split at hm
    · obtain rfl := Except.ok.inj hm
      exact .next (opened_object h) hD
    · cases hm

theorem eq_of_openFrame {frame : Frame α} {mode : Mode α}
    (hm : openFrame frames frame mode = .ok m) : m = ⟨frame :: frames, mode⟩ := by
  unfold openFrame at hm
  split at hm
  · exact (Except.ok.inj hm).symm
  · cases hm

theorem reached_beginValue {pre : List Char} {c : Char} (h : Opened frames cs) (hpre : Blanks pre)
    (hm : beginValue b frames c = .ok m) : Reached m (cs ++ pre ++ [c]) := by
  unfold beginValue at hm
  split at hm
  · obtain rfl := Except.ok.inj hm
    rw [List.append_assoc]
    exact .text h hpre PartialText.begins_start
  · obtain rfl := eq_of_openFrame hm
    exact .between (.element h hpre blanks_nil)
  · obtain rfl := eq_of_openFrame hm
    exact .between (.member h hpre blanks_nil)
  · obtain rfl := Except.ok.inj hm
    rw [List.append_assoc]
    exact .word h hpre .trueWord
  · obtain rfl := Except.ok.inj hm
    rw [List.append_assoc]
    exact .word h hpre .falseWord
  · obtain rfl := Except.ok.inj hm
    rw [List.append_assoc]
    exact .word h hpre .null
  · split at hm
    · rename_i n hn
      obtain rfl := Except.ok.inj hm
      rw [List.append_assoc]
      exact .number h hpre (PartialNumber.begins_start? hn)
    · cases hm

theorem between_afterValue {ds : List Char} {D : Document} {c : Char} (h : Opened frames cs)
    (hD : Spells D ds) (hm : afterValue b frames c = .ok m) : Between m (cs ++ ds ++ [c]) := by
  unfold afterValue at hm
  split at hm
  · obtain rfl := Except.ok.inj hm
    exact between_opened (opened_comma hD h)
  · obtain ⟨os, es, items, houter, hitems, htext⟩ := opened_bracket hD h
    rw [htext]
    exact between_finish houter hitems hm
  · obtain rfl := Except.ok.inj hm
    exact between_keyPlace (keyPlace_comma hD h)
  · obtain ⟨os, es, entries, houter, hentries, htext⟩ := opened_brace hD h
    rw [htext]
    exact between_finish houter hentries hm
  · cases hm

theorem between_blank {c : Char} (h : Between m cs) (hc : isBlank c = true) :
    Between m (cs ++ [c]) := by
  cases h with
  | value hopened hpre =>
    rw [List.append_assoc]
    exact .value hopened (hpre.push hc)
  | element houter hpre hgap =>
    rw [List.append_assoc, List.cons_append]
    exact .element houter hpre (hgap.push hc)
  | member houter hpre hgap =>
    rw [List.append_assoc, List.cons_append]
    exact .member houter hpre (hgap.push hc)
  | key place hpre =>
    rw [List.append_assoc]
    exact .key place (hpre.push hc)
  | colon place hkey =>
    rw [List.append_assoc]
    exact .colon place (hkey.push hc)
  | next hopened hD =>
    rw [List.append_assoc]
    exact .next hopened (hD.push hc)
  | done hD => exact .done (hD.push hc)

section
variable {pre gap : List Char} (hpre : Blanks pre) (hgap : Blanks gap)
include hpre hgap

theorem spells_emptyArray : Spells (.array []) (pre ++ '[' :: gap ++ [']']) := by
  have hempty : Spells (.array []) (pre ++ '[' :: gap ++ separate [] ++ ']' :: []) :=
    .array .nil hpre hgap blanks_nil
  rwa [separate, List.append_nil] at hempty

theorem spells_emptyObject : Spells (.object []) (pre ++ '\x7b' :: gap ++ ['\x7d']) := by
  have hempty : Spells (.object []) (pre ++ '\x7b' :: gap ++
      separate (List.zipWith spellEntry [] []) ++ '\x7d' :: []) :=
    .object .nil .nil hpre hgap blanks_nil
  rwa [List.zipWith_nil_left, separate, List.append_nil] at hempty

theorem opened_emptyArray (h : Opened frames cs) :
    Opened (.array [] :: frames) (cs ++ pre ++ '[' :: gap) := by
  have hopened : Opened (.array [] :: frames) (cs ++ pre ++ '[' :: gap ++ listed []) :=
    .array h hpre hgap .nil
  rwa [listed, List.flatMap_nil, List.append_nil] at hopened

theorem keyPlace_emptyObject (h : Opened frames cs) {key : String} :
    KeyPlace (.object [] key :: frames) (cs ++ pre ++ '\x7b' :: gap) := by
  have hkeys : List.Forall₂ SpellsKey (([] : List (String × Document)).map Prod.fst) [] := .nil
  have hplace : KeyPlace (.object [] key :: frames)
      (cs ++ pre ++ '\x7b' :: gap ++ listed (List.zipWith spellEntry [] [])) :=
    .entries h hpre hgap hkeys .nil
  rwa [List.zipWith_nil_left, listed, List.flatMap_nil, List.append_nil] at hplace

end

theorem reached_structural {c : Char} (h : Between m cs) (hm : structural b m c = .ok m') :
    Reached m' (cs ++ [c]) := by
  unfold structural at hm
  split at hm
  · rename_i hc
    obtain rfl := Except.ok.inj hm
    exact .between (between_blank h hc)
  cases h with
  | value hopened hpre => exact reached_beginValue hopened hpre hm
  | @element frames cs pre gap houter hpre hgap =>
    dsimp only at hm
    split at hm
    · rename_i hc
      rw [beq_iff_eq.mp hc]
      refine .between ?_
      simpa using between_finish houter (spells_emptyArray hpre hgap) hm
    · simpa using reached_beginValue (opened_emptyArray hpre hgap houter) blanks_nil hm
  | @member frames cs pre gap key houter hpre hgap =>
    dsimp only at hm
    split at hm
    · rename_i hc
      obtain rfl := Except.ok.inj hm
      rw [beq_iff_eq.mp hc]
      exact .keyText (keyPlace_emptyObject hpre hgap houter) blanks_nil PartialText.begins_start
    split at hm
    · rename_i hc
      rw [beq_iff_eq.mp hc]
      refine .between ?_
      simpa using between_finish houter (spells_emptyObject hpre hgap) hm
    · cases hm
  | key place hpre =>
    dsimp only at hm
    split at hm
    · rename_i hc
      obtain rfl := Except.ok.inj hm
      rw [beq_iff_eq.mp hc, List.append_assoc]
      exact .keyText place hpre PartialText.begins_start
    · cases hm
  | colon place hkey =>
    dsimp only at hm
    split at hm
    · rename_i hc
      obtain rfl := Except.ok.inj hm
      rw [beq_iff_eq.mp hc]
      exact .between (between_opened (.object place hkey))
    · cases hm
  | next hopened hD => exact .between (between_afterValue hopened hD hm)
  | done hD => cases hm

theorem between_setKey {key : String} {ks : List Char} (place : KeyPlace frames cs)
    (hkey : SpellsKey key ks) (hm : setKey frames key = .ok m) : Between m (cs ++ ks) := by
  unfold setKey at hm
  split at hm
  · obtain rfl := Except.ok.inj hm
    exact .colon (keyPlace_object place) hkey
  · cases hm

theorem between_finishNumber {pre ds : List Char} {n : PartialNumber} (h : Opened frames cs)
    (hpre : Blanks pre) (hn : n.Begins ds) (hm : finishNumber b frames n = .ok m) :
    Between m (cs ++ (pre ++ ds)) := by
  unfold finishNumber at hm
  split at hm
  · cases hm
  · rename_i number hnumber
    split at hm
    · have hfinal : n.phase.final = true := by
        by_contra hfinal
        rw [PartialNumber.number?, if_neg hfinal] at hnumber
        cases hnumber
      have hleaf := Spells.of_leaf (.number (PartialNumber.spellsNumber_of_begins hn hfinal)) hpre
      exact between_finish h hleaf hm
    · cases hm

theorem step_of_between (h : Between m cs) (c : Char) : step b m c = structural b m c := by
  cases h <;> rfl

theorem reached_step {c : Char} (h : Reached m cs) (hm : step b m c = .ok m') :
    Reached m' (cs ++ [c]) := by
  cases h with
  | between h =>
    rw [step_of_between h] at hm
    exact reached_structural h hm
  | @keyText frames cs pre ds t place hpre ht =>
    simp only [step] at hm
    split at hm
    · rename_i t' hnext
      obtain rfl := Except.ok.inj hm
      simpa using Reached.keyText place hpre (PartialText.next_extend ht hnext)
    · rename_i content hnext
      obtain ⟨rfl, htext⟩ := PartialText.next_finish ht hnext
      have hkey : SpellsKey (String.ofList content) (pre ++ '"' :: ds ++ '"' :: []) :=
        .quoted (by rwa [String.toList_ofList]) hpre blanks_nil
      refine .between ?_
      simpa using between_setKey place hkey hm
    · cases hm
  | @text frames cs pre ds t hopened hpre ht =>
    simp only [step] at hm
    split at hm
    · rename_i t' hnext
      obtain rfl := Except.ok.inj hm
      simpa using Reached.text hopened hpre (PartialText.next_extend ht hnext)
    · rename_i content hnext
      obtain ⟨rfl, htext⟩ := PartialText.next_finish ht hnext
      have hleaf : Spells (.text (String.ofList content)) (pre ++ ('"' :: ds ++ ['"'])) :=
        .of_leaf (.text (by rwa [String.toList_ofList])) hpre
      refine .between ?_
      simpa using between_finish hopened hleaf hm
    · cases hm
  | @word frames cs pre ds rest d value D hopened hpre hleaf =>
    simp only [step] at hm
    split at hm
    · rename_i hc
      obtain rfl := beq_iff_eq.mp hc
      cases rest with
      | nil =>
        refine .between ?_
        simpa using between_finish hopened (Spells.of_leaf hleaf hpre) hm
      | cons d rest =>
        obtain rfl := Except.ok.inj hm
        have hleaf' : SpellsLeaf D (ds ++ [c] ++ d :: rest) := by simpa using hleaf
        simpa using Reached.word hopened hpre hleaf'
    · cases hm
  | @number frames cs pre ds n hopened hpre hn =>
    simp only [step] at hm
    split at hm
    · rename_i n' hnext
      obtain rfl := Except.ok.inj hm
      simpa using Reached.number hopened hpre (PartialNumber.begins_next hn hnext)
    · split at hm
      -- The character that ends a number is not part of it and is read once more.
      · rename_i hfinish
        exact reached_structural (between_finishNumber hopened hpre hn hfinish) hm
      · cases hm
    · cases hm

theorem reached_run {ds : List Char} (h : Reached m cs) (hm : run b m ds = .ok m') :
    Reached m' (cs ++ ds) := by
  induction ds generalizing m cs with
  | nil =>
    obtain rfl := Except.ok.inj hm
    rwa [List.append_nil]
  | cons c ds ih =>
    rw [run] at hm
    split at hm
    · rename_i hstep
      rw [List.append_cons]
      exact ih (reached_step h hstep) hm
    · cases hm

theorem spells_of_result {value : α} (h : Reached m cs) (hm : result b m = .ok value) :
    ∃ D, Spells D cs := by
  unfold result at hm
  cases h with
  | between h =>
    cases h with
    | done hD => exact ⟨_, hD⟩
    | _ => cases hm
  | number hopened hpre hn =>
    dsimp only at hm
    split at hm
    · rename_i hfinish
      have hbetween := between_finishNumber hopened hpre hn hfinish
      cases hbetween with
      | done hD => exact ⟨_, hD⟩
    · cases hm
    · cases hm
  | _ => cases hm

end

end Machine

/-- Whatever is made of it, a text that is read spells a document. -/
theorem spells_of_read {α : Type} {b : Builder α} {text : String} {value : α}
    (h : read b text = .ok value) : ∃ D, Spells D text.toList := by
  rw [read] at h
  split at h
  · rename_i m hm
    have hstart := Machine.Reached.between (Machine.between_opened (.root (α := α)))
    exact Machine.spells_of_result (Machine.reached_run hstart hm) h
  · cases h

end SolverConfig.Json
