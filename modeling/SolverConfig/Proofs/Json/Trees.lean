import SolverConfig.Proofs.Basic
import SolverConfig.Proofs.Json.Reading

/-!
# Trees of documents

What the tree of a document is, part by part, with the conditions under which it has one: how deep
arrays and objects nest, whether keys are repeated, and which numbers stand in it. A builder
succeeds on an array or object when it succeeds on every part.
-/

namespace SolverConfig

-- ---------------------------------------------------------------------------
-- Numbers
-- ---------------------------------------------------------------------------

namespace NumberLiteral

def integer (l : NumberLiteral) : Int :=
  if l.negative then -(digitsValue l.whole : Int) else digitsValue l.whole

/-- The leaf that a number becomes. An integer by its form becomes a real if it is minus zero, below
the range of 64 signed bits or above that of 64 unsigned bits, and nothing if it is above the range
of 64 signed bits alone. -/
inductive ReadsAs (l : NumberLiteral) : Tree → Prop
  | integer (whole : l.isWhole = true) (lower : Int64.minValue.toInt ≤ l.integer)
      (upper : l.integer ≤ Int64.maxValue.toInt) (sign : l.negative = true → l.integer ≠ 0) :
      ReadsAs l (.integer (Int64.ofInt l.integer))
  | real {x : Double} (beyond : l.isWhole = true → l.integer < Int64.minValue.toInt ∨
        UInt64.size ≤ l.integer ∨ l.negative = true ∧ l.integer = 0)
      (scaled : l.scaled? = some x) : ReadsAs l (.real x)

end NumberLiteral

namespace Json

namespace Number

theorem ofLiteral?_cases (l : NumberLiteral) :
    (l.isWhole = true ∧ l.negative = false ∧ l.integer < UInt64.size ∧
        ∃ n : Nat, l.integer = n ∧ ofLiteral? l = some (.unsigned n)) ∨
      (l.isWhole = true ∧ Int64.minValue.toInt ≤ l.integer ∧ l.integer < 0 ∧
        ∃ n : Nat, l.integer = -n ∧ ofLiteral? l = some (.negative n)) ∨
      ((l.isWhole = true → l.integer < Int64.minValue.toInt ∨ UInt64.size ≤ l.integer ∨
          l.negative = true ∧ l.integer = 0) ∧ ofLiteral? l = l.scaled?.map .real) := by
  unfold ofLiteral? NumberLiteral.integer
  cases l.isWhole with
  | false => exact .inr (.inr ⟨nofun, rfl⟩)
  | true =>
    cases l.negative with
    | false =>
      by_cases hsize : digitsValue l.whole < UInt64.size
      · exact .inl ⟨rfl, rfl, Int.ofNat_lt.mpr hsize, _, rfl, by simp [hsize]⟩
      · refine .inr (.inr ⟨fun _ => .inr (.inl ?_), by simp [hsize]⟩)
        exact Int.ofNat_le.mpr (Nat.not_lt.mp hsize)
    | true =>
      generalize Int64.minValue.toInt = least
      by_cases hneg : 0 < digitsValue l.whole ∧ least ≤ -digitsValue l.whole
      · refine .inr (.inl ⟨rfl, hneg.2, ?_, _, rfl, by simp [hneg]⟩)
        simpa using hneg.1
      · refine .inr (.inr ⟨fun _ => ?_, ?_⟩)
        · simp only [if_true, true_and]
          omega
        · simp only [Bool.and_true, Bool.not_true, Bool.and_false, Bool.false_and, Bool.true_and,
            Bool.false_eq_true, if_false, Bool.and_eq_true, decide_eq_true_eq, hneg]

theorem toTree_unsigned {n : Nat} {t : Tree} : (unsigned n).toTree = .ok t ↔
    (n : Int) ≤ Int64.maxValue.toInt ∧ t = .integer (Int64.ofInt n) := by
  unfold toTree
  dsimp only
  split <;> simp [*, eq_comm]

theorem toTree_ok {l : NumberLiteral} {t : Tree} :
    (∃ n, ofLiteral? l = some n ∧ n.toTree = .ok t) ↔ l.ReadsAs t := by
  have hmin : Int64.minValue.toInt < 0 := by decide
  have hmax : 0 < Int64.maxValue.toInt := by decide
  have hsize : Int64.maxValue.toInt < UInt64.size := by decide
  -- Whole numbers are unsigned or negative words; those beyond both are reals, like all others.
  rcases ofLiteral?_cases l with ⟨hwhole, hsign, hfits, n, hvalue, hn⟩ |
    ⟨hwhole, hlower, hupper, n, hvalue, hn⟩ | ⟨hbeyond, hx⟩
  · simp only [hn, Option.some.injEq, exists_eq_left', toTree_unsigned]
    rw [← hvalue]
    constructor
    · rintro ⟨hle, rfl⟩
      exact .integer hwhole (by omega) hle (by simp [hsign])
    · rintro (⟨-, -, hle, -⟩ | ⟨hbeyond, -⟩)
      · exact ⟨hle, rfl⟩
      · rcases hbeyond hwhole with h | h | ⟨h, -⟩
        · omega
        · omega
        · rw [hsign] at h
          cases h
  · simp only [hn, Option.some.injEq, exists_eq_left', toTree, ← hvalue, Except.ok.injEq]
    constructor
    · rintro rfl
      exact .integer hwhole hlower (by omega) fun _ => by omega
    · rintro (_ | ⟨hbeyond, -⟩)
      · rfl
      · rcases hbeyond hwhole with h | h | ⟨-, h⟩ <;> omega
  · simp only [hx, Option.map_eq_some_iff]
    constructor
    · rintro ⟨_, ⟨x, hx, rfl⟩, ⟨⟩⟩
      exact .real hbeyond hx
    · rintro (⟨hwhole, hlower, hupper, hsign⟩ | ⟨-, hx⟩)
      · rcases hbeyond hwhole with h | h | ⟨hneg, h⟩
        · omega
        · omega
        · exact absurd h (hsign hneg)
      · exact ⟨_, ⟨_, hx, rfl⟩, rfl⟩

end Number

-- ---------------------------------------------------------------------------
-- Places
-- ---------------------------------------------------------------------------

end Json

namespace Tree

/-- The item of an array or the value of a map's entry at a position. -/
def child? : Tree → Nat → Option Tree
  | .array items, i => items[i]?
  | .map entries, i => (entries[i]?).map Prod.snd
  | _, _ => none

def at? (t : Tree) (path : List Nat) : Option Tree := path.foldlM child? t

end Tree

namespace Json

namespace Document

def child? : Document → Nat → Option Document
  | .array items, i => items[i]?
  | .object entries, i => (entries[i]?).map Prod.snd
  | _, _ => none

def at? (D : Document) (path : List Nat) : Option Document := path.foldlM child? D

def Literals (P : NumberLiteral → Prop) (D : Document) : Prop :=
  ∀ path l, D.at? path = some (.number l) → P l

theorem at?_cons {D C : Document} {i : Nat} {path : List Nat} :
    D.at? (i :: path) = some C ↔ ∃ B, D.child? i = some B ∧ B.at? path = some C := by
  rw [at?, List.foldlM_cons]
  exact Option.bind_eq_some_iff

section
variable {P : NumberLiteral → Prop}

theorem literals_iff {D : Document} : D.Literals P ↔
    (∀ l, D = .number l → P l) ∧ ∀ i C, D.child? i = some C → C.Literals P := by
  constructor
  · exact fun h => ⟨fun l hl => h [] l (congrArg some hl),
      fun i C hC path l hl => h (i :: path) l (at?_cons.mpr ⟨C, hC, hl⟩)⟩
  · rintro ⟨hhere, hbelow⟩ path l hl
    cases path with
    | nil => exact hhere l (Option.some.inj hl)
    | cons i path =>
      obtain ⟨C, hC, hl⟩ := at?_cons.mp hl
      exact hbelow i C hC path l hl

@[simp] theorem literals_null : Literals P .null := literals_iff.mpr ⟨nofun, nofun⟩

@[simp] theorem literals_boolean {b : Bool} : Literals P (.boolean b) :=
  literals_iff.mpr ⟨nofun, nofun⟩

@[simp] theorem literals_text {s : String} : Literals P (.text s) :=
  literals_iff.mpr ⟨nofun, nofun⟩

@[simp] theorem literals_number {l : NumberLiteral} : Literals P (.number l) ↔ P l :=
  literals_iff.trans ⟨fun h => h.1 l rfl, fun h => ⟨fun _ hl => number.inj hl ▸ h, nofun⟩⟩

theorem literals_array {items : List Document} :
    Literals P (.array items) ↔ ∀ item ∈ items, item.Literals P := by
  rw [literals_iff]
  constructor
  · rintro ⟨-, h⟩ item hitem
    obtain ⟨i, hi⟩ := List.mem_iff_getElem?.mp hitem
    exact h i item hi
  · exact fun h => ⟨nofun, fun i C hC => h C (List.mem_of_getElem? hC)⟩

theorem literals_object {entries : List (String × Document)} :
    Literals P (.object entries) ↔ ∀ entry ∈ entries, entry.2.Literals P := by
  rw [literals_iff]
  constructor
  · rintro ⟨-, h⟩ entry hentry
    obtain ⟨i, hi⟩ := List.mem_iff_getElem?.mp hentry
    exact h i entry.2 (Option.map_eq_some_iff.mpr ⟨entry, hi, rfl⟩)
  · refine fun h => ⟨nofun, fun i C hC => ?_⟩
    obtain ⟨entry, hi, rfl⟩ := Option.map_eq_some_iff.mp hC
    exact h entry (List.mem_of_getElem? hi)

end

-- ---------------------------------------------------------------------------
-- Trees
-- ---------------------------------------------------------------------------

def isNested : Document → Bool
  | .array _ | .object _ => true
  | _ => false

inductive NestsWithin : Document → Nat → Prop
  | single {D : Document} {depth : Nat} (single : D.isNested = false) : NestsWithin D depth
  | array {items : List Document} {depth : Nat} (each : ∀ item ∈ items, NestsWithin item depth) :
      NestsWithin (.array items) (depth + 1)
  | object {entries : List (String × Document)} {depth : Nat}
      (each : ∀ entry ∈ entries, NestsWithin entry.2 depth) :
      NestsWithin (.object entries) (depth + 1)

inductive Distinct : Document → Prop
  | single {D : Document} (single : D.isNested = false) : Distinct D
  | array {items : List Document} (each : ∀ item ∈ items, Distinct item) : Distinct (.array items)
  | object {entries : List (String × Document)} (keys : (entries.map Prod.fst).Nodup)
      (each : ∀ entry ∈ entries, Distinct entry.2) : Distinct (.object entries)

/-- The tree of a document, part by part. -/
inductive ReadsAs : Document → Tree → Prop
  | null : ReadsAs .null .empty
  | boolean {b : Bool} : ReadsAs (.boolean b) (.boolean b)
  | number {l : NumberLiteral} {t : Tree} (number : l.ReadsAs t) : ReadsAs (.number l) t
  | text {s : String} : ReadsAs (.text s) (.text s)
  | array {items : List Document} {trees : List Tree} (each : List.Forall₂ ReadsAs items trees) :
      ReadsAs (.array items) (.array trees)
  | object {entries : List (String × Document)} {trees : Tree.Entries}
      (each : List.Forall₂ (Keyed ReadsAs) entries trees) : ReadsAs (.object entries) (.map trees)

theorem nestsWithin_array {items : List Document} {depth : Nat} :
    NestsWithin (.array items) depth ↔
      ∃ below, depth = below + 1 ∧ ∀ item ∈ items, item.NestsWithin below := by
  constructor
  · rintro (⟨h⟩ | h | _)
    · cases h
    · exact ⟨_, rfl, h⟩
  · rintro ⟨_, rfl, h⟩
    exact .array h

theorem nestsWithin_object {entries : List (String × Document)} {depth : Nat} :
    NestsWithin (.object entries) depth ↔
      ∃ below, depth = below + 1 ∧ ∀ entry ∈ entries, entry.2.NestsWithin below := by
  constructor
  · rintro (⟨h⟩ | _ | h)
    · cases h
    · exact ⟨_, rfl, h⟩
  · rintro ⟨_, rfl, h⟩
    exact .object h

theorem distinct_array {items : List Document} :
    Distinct (.array items) ↔ ∀ item ∈ items, item.Distinct := by
  constructor
  · rintro (⟨h⟩ | h | _)
    · cases h
    · exact h
  · exact .array

theorem distinct_object {entries : List (String × Document)} :
    Distinct (.object entries) ↔
      (entries.map Prod.fst).Nodup ∧ ∀ entry ∈ entries, entry.2.Distinct := by
  constructor
  · rintro (⟨h⟩ | _ | ⟨hk, h⟩)
    · cases h
    · exact ⟨hk, h⟩
  · rintro ⟨hk, h⟩
    exact .object hk h

theorem readsAs_number {l : NumberLiteral} {t : Tree} : ReadsAs (.number l) t ↔ l.ReadsAs t := by
  refine ⟨fun h => ?_, .number⟩
  cases h
  assumption

theorem readsAs_array {items : List Document} {t : Tree} : ReadsAs (.array items) t ↔
    ∃ trees, t = .array trees ∧ List.Forall₂ ReadsAs items trees := by
  constructor
  · rintro (_ | _ | _ | _ | h)
    exact ⟨_, rfl, h⟩
  · rintro ⟨_, rfl, h⟩
    exact .array h

theorem readsAs_object {entries : List (String × Document)} {t : Tree} :
    ReadsAs (.object entries) t ↔
      ∃ trees, t = .map trees ∧ List.Forall₂ (Keyed ReadsAs) entries trees := by
  constructor
  · rintro (_ | _ | _ | _ | _ | h)
    exact ⟨_, rfl, h⟩
  · rintro ⟨_, rfl, h⟩
    exact .object h

/-- A document has a tree if its numbers have. -/
theorem exists_readsAs {D : Document} :
    (∃ t, D.ReadsAs t) ↔ D.Literals fun l => ∃ t, l.ReadsAs t := by
  induction D using Document.induction with
  | null => exact iff_of_true ⟨_, .null⟩ literals_null
  | boolean b => exact iff_of_true ⟨_, .boolean⟩ literals_boolean
  | text s => exact iff_of_true ⟨_, .text⟩ literals_text
  | number l => simp only [readsAs_number, literals_number]
  | array items ih =>
    have hparts : (∃ t, ReadsAs (.array items) t) ↔ ∃ trees, List.Forall₂ ReadsAs items trees := by
      simp only [readsAs_array, exists_comm, exists_eq_left]
    rw [hparts, forall₂_exists, literals_array]
    exact forall₂_congr ih
  | object entries ih =>
    have hparts : (∃ t, ReadsAs (.object entries) t) ↔
        ∃ trees, List.Forall₂ (Keyed ReadsAs) entries trees := by
      simp only [readsAs_object, exists_comm, exists_eq_left]
    rw [hparts, Keyed.forall₂_exists, literals_object]
    exact forall₂_congr ih

theorem ReadsAs.at? {D C : Document} {t : Tree} {path : List Nat} (h : D.ReadsAs t)
    (hC : D.at? path = some C) : ∃ u, t.at? path = some u ∧ C.ReadsAs u := by
  induction path generalizing D t with
  | nil =>
    obtain rfl := Option.some.inj hC
    exact ⟨t, rfl, h⟩
  | cons i path ih =>
    obtain ⟨B, hB, hC⟩ := at?_cons.mp hC
    have hchild : ∃ u, t.child? i = some u ∧ B.ReadsAs u := by
      cases h with
      | array each => exact forall₂_getElem? each hB
      | object each =>
        obtain ⟨entry, hentry, rfl⟩ := Option.map_eq_some_iff.mp hB
        obtain ⟨other, hother, hread⟩ := forall₂_getElem? each hentry
        exact ⟨other.2, Option.map_eq_some_iff.mpr ⟨other, hother, rfl⟩, (Keyed.iff.mp hread).2⟩
      | _ => cases hB
    obtain ⟨u, hu, hread⟩ := hchild
    obtain ⟨w, hw, hread⟩ := ih hread hC
    exact ⟨w, by rw [Tree.at?, List.foldlM_cons, hu]; exact hw, hread⟩

end Document

-- ---------------------------------------------------------------------------
-- Building
-- ---------------------------------------------------------------------------

namespace Builder

variable {α : Type} {b : Builder α} {depth : Nat}

def enter (b : Builder α) (built : List (String × α)) (entry : String × α) :
    Except Fault (List (String × α)) := b.entry built entry.1 entry.2

theorem build_number_ok {l : NumberLiteral} {v : α} : b.build (.number l) depth = .ok v ↔
    ∃ n, Number.ofLiteral? l = some n ∧ b.number n = .ok v := by
  rw [build]
  cases Number.ofLiteral? l <;> simp

theorem buildItems_ok {items : List Document} {vs : List α} :
    b.buildItems items depth = .ok vs ↔
      List.Forall₂ (fun D v => b.build D depth = .ok v) items vs := by
  induction items generalizing vs with
  | nil => simp [buildItems, eq_comm]
  | cons D rest ih =>
    simp only [buildItems, bind_ok, map_ok, ih, List.forall₂_cons_left_iff]
    constructor
    · rintro ⟨v, hv, vs, hvs, rfl⟩
      exact ⟨v, vs, hv, hvs, rfl⟩
    · rintro ⟨v, vs, hv, hvs, rfl⟩
      exact ⟨v, hv, vs, hvs, rfl⟩

theorem buildEntries_ok {entries : List (String × Document)} {before built : List (String × α)} :
    b.buildEntries entries depth before = .ok built ↔
      ∃ vs, List.Forall₂ (Keyed fun D v => b.build D depth = .ok v) entries vs ∧
        vs.foldlM b.enter before = .ok built := by
  induction entries generalizing before with
  | nil => simp [buildEntries, pure, Except.pure]
  | cons entry rest ih =>
    obtain ⟨key, D⟩ := entry
    simp only [buildEntries, bind_ok, ih]
    constructor
    · rintro ⟨v, hv, built, hbuilt, vs, hvs, hrest⟩
      refine ⟨(key, v) :: vs, .cons (.intro hv) hvs, ?_⟩
      rw [List.foldlM_cons]
      exact bind_ok.mpr ⟨built, hbuilt, hrest⟩
    · rintro ⟨_, _ | ⟨⟨hv⟩, hvs⟩, hrest⟩
      rw [List.foldlM_cons] at hrest
      obtain ⟨built, hbuilt, hrest⟩ := bind_ok.mp hrest
      exact ⟨_, hv, built, hbuilt, _, hvs, hrest⟩

theorem build_array_ok {items : List Document} {v : α} : b.build (.array items) depth = .ok v ↔
    ∃ below, depth = below + 1 ∧ ∃ vs,
      List.Forall₂ (fun D v => b.build D below = .ok v) items vs ∧ b.array vs = v := by
  cases depth with
  | zero => simp [build]
  | succ below => simp [build, map_ok, buildItems_ok]

theorem build_object_ok {entries : List (String × Document)} {v : α} :
    b.build (.object entries) depth = .ok v ↔
      ∃ below, depth = below + 1 ∧ ∃ vs,
        List.Forall₂ (Keyed fun D v => b.build D below = .ok v) entries vs ∧
          ∃ built, vs.foldlM b.enter [] = .ok built ∧ b.object built = v := by
  cases depth with
  | zero => simp [build]
  | succ below =>
    simp only [build, map_ok, buildEntries_ok, Nat.add_right_cancel_iff, exists_eq_left']
    constructor
    · rintro ⟨built, ⟨vs, hvs, hbuilt⟩, rfl⟩
      exact ⟨vs, hvs, built, hbuilt, rfl⟩
    · rintro ⟨vs, hvs, built, hbuilt, rfl⟩
      exact ⟨built, ⟨vs, hvs, hbuilt⟩, rfl⟩

end Builder

end Json

end SolverConfig
