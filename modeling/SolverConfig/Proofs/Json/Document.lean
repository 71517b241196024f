import Mathlib.Data.List.Forall2
import SolverConfig.Json.Value
import SolverConfig.Json.Writer

/-!
# JSON documents

What a JSON text says, before any of it is judged, and the texts that say it. Numbers stand as they
are written, objects with all their entries.
-/

namespace SolverConfig.Json

inductive Document where
  | null
  | boolean (b : Bool)
  | number (l : NumberLiteral)
  | text (s : String)
  | array (items : List Document)
  | object (entries : List (String × Document))

-- ---------------------------------------------------------------------------
-- Spelling of leaves
-- ---------------------------------------------------------------------------

def Blanks (cs : List Char) : Prop := ∀ c ∈ cs, isBlank c = true

theorem blanks_nil : Blanks [] := nofun

def Digits (cs : List Char) : Prop := cs ≠ [] ∧ ∀ c ∈ cs, PartialNumber.isDigit c = true

/-- Digits, of which the first is a zero only if it stands alone. -/
def WholeDigits (cs : List Char) : Prop := Digits cs ∧ (cs.head? = some '0' → cs = ['0'])

inductive SpellsFraction : Option (List Char) → List Char → Prop
  | none : SpellsFraction none []
  | some {ds : List Char} (digits : Digits ds) : SpellsFraction (some ds) ('.' :: ds)

inductive SpellsExponent : Option Exponent → List Char → Prop
  | none : SpellsExponent none []
  | unsigned {mark : Char} {ds : List Char} (isMark : PartialNumber.isMark mark = true)
      (digits : Digits ds) : SpellsExponent (some ⟨false, ds⟩) (mark :: ds)
  | plus {mark : Char} {ds : List Char} (isMark : PartialNumber.isMark mark = true)
      (digits : Digits ds) : SpellsExponent (some ⟨false, ds⟩) (mark :: '+' :: ds)
  | minus {mark : Char} {ds : List Char} (isMark : PartialNumber.isMark mark = true)
      (digits : Digits ds) : SpellsExponent (some ⟨true, ds⟩) (mark :: '-' :: ds)

inductive SpellsNumber (l : NumberLiteral) : List Char → Prop
  | parts {fs es : List Char} (whole : WholeDigits l.whole)
      (fraction : SpellsFraction l.fraction fs) (exponent : SpellsExponent l.exponent es) :
      SpellsNumber l ((if l.negative then ['-'] else []) ++ l.whole ++ fs ++ es)

inductive SpellsUnit : Nat → List Char → Prop
  | digits {c₁ c₂ c₃ c₄ : Char} {d₁ d₂ d₃ d₄ : Nat} (first : hexValue? c₁ = some d₁)
      (second : hexValue? c₂ = some d₂) (third : hexValue? c₃ = some d₃)
      (fourth : hexValue? c₄ = some d₄) :
      SpellsUnit (16 * (16 * (16 * d₁ + d₂) + d₃) + d₄) [c₁, c₂, c₃, c₄]

inductive SpellsChar : Char → List Char → Prop
  | plain {c : Char} (quote : c ≠ '"') (backslash : c ≠ '\\') (printed : 0x20 ≤ c.toNat) :
      SpellsChar c [c]
  | escape {c d : Char} (unescape : unescape? d = some c) : SpellsChar c ['\\', d]
  | unit {n : Nat} {cs : List Char} (unit : SpellsUnit n cs) (high : PartialText.isHigh n = false)
      (low : PartialText.isLow n = false) : SpellsChar (Char.ofNat n) ('\\' :: 'u' :: cs)
  | pair {high low : Nat} {cs ds : List Char} (first : SpellsUnit high cs)
      (second : SpellsUnit low ds) (isHigh : PartialText.isHigh high = true)
      (isLow : PartialText.isLow low = true) :
      SpellsChar (Char.ofNat (0x10000 + (high - 0xd800) * 0x400 + (low - 0xdc00)))
        ('\\' :: 'u' :: cs ++ '\\' :: 'u' :: ds)

inductive SpellsText : List Char → List Char → Prop
  | nil : SpellsText [] []
  | cons {c : Char} {content cs ds : List Char} (first : SpellsChar c cs)
      (rest : SpellsText content ds) : SpellsText (c :: content) (cs ++ ds)

inductive SpellsLeaf : Document → List Char → Prop
  | null : SpellsLeaf .null ['n', 'u', 'l', 'l']
  | trueWord : SpellsLeaf (.boolean true) ['t', 'r', 'u', 'e']
  | falseWord : SpellsLeaf (.boolean false) ['f', 'a', 'l', 's', 'e']
  | number {l : NumberLiteral} {cs : List Char} (number : SpellsNumber l cs) :
      SpellsLeaf (.number l) cs
  | text {s : String} {cs : List Char} (text : SpellsText s.toList cs) :
      SpellsLeaf (.text s) ('"' :: cs ++ ['"'])

-- ---------------------------------------------------------------------------
-- Spelling of documents
-- ---------------------------------------------------------------------------

inductive SpellsKey : String → List Char → Prop
  | quoted {key : String} {pre cs post : List Char} (text : SpellsText key.toList cs)
      (before : Blanks pre) (after : Blanks post) :
      SpellsKey key (pre ++ '"' :: cs ++ '"' :: post)

def spellEntry (key value : List Char) : List Char := key ++ ':' :: value

/-- The texts of a document, with blanks around every part of it. -/
inductive Spells : Document → List Char → Prop
  | leaf {D : Document} {pre cs post : List Char} (leaf : SpellsLeaf D cs)
      (before : Blanks pre) (after : Blanks post) : Spells D (pre ++ cs ++ post)
  | array {items : List Document} {parts : List (List Char)} {pre gap post : List Char}
      (each : List.Forall₂ Spells items parts) (before : Blanks pre) (inside : Blanks gap)
      (after : Blanks post) :
      Spells (.array items) (pre ++ '[' :: gap ++ separate parts ++ ']' :: post)
  | object {entries : List (String × Document)} {keys values : List (List Char)}
      {pre gap post : List Char} (eachKey : List.Forall₂ SpellsKey (entries.map Prod.fst) keys)
      (each : List.Forall₂ Spells (entries.map Prod.snd) values) (before : Blanks pre)
      (inside : Blanks gap) (after : Blanks post) :
      Spells (.object entries)
        (pre ++ '\x7b' :: gap ++
          separate (List.zipWith spellEntry keys values) ++ '\x7d' :: post)

namespace Document

@[elab_as_elim]
theorem induction {motive : Document → Prop} (null : motive .null)
    (boolean : ∀ b, motive (.boolean b)) (number : ∀ l, motive (.number l))
    (text : ∀ s, motive (.text s))
    (array : ∀ items, (∀ item ∈ items, motive item) → motive (.array items))
    (object : ∀ entries, (∀ entry ∈ entries, motive entry.2) → motive (.object entries))
    (D : Document) : motive D := by
  refine @Document.rec motive (fun items => ∀ item ∈ items, motive item)
    (fun entries => ∀ entry ∈ entries, motive entry.2) (fun entry => motive entry.2)
    null boolean number text array object (by simp) ?_ (by simp) ?_ (fun _ _ h => h) D
  · exact fun item rest hitem hrest => List.forall_mem_cons.mpr ⟨hitem, hrest⟩
  · exact fun entry rest hentry hrest => List.forall_mem_cons.mpr ⟨hentry, hrest⟩

end Document

end SolverConfig.Json
