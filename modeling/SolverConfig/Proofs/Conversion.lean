import Mathlib.Algebra.Ring.Int.Defs
import SolverConfig.Proofs.Errors
import SolverConfig.Proofs.Idempotence
import SolverConfig.Proofs.Values

/-!
# Conversions

Integers convert exactly or not at all, and values that are stored in a tree are read back from it.
Composed targets convert part by part: what fails is the first part that does, and its error still
is that of a bare value.
-/

namespace SolverConfig

-- ---------------------------------------------------------------------------
-- Words
-- ---------------------------------------------------------------------------

namespace IntegerType

def bits : IntegerType → Nat
  | .int8 | .nat8 => 8
  | .int16 | .nat16 => 16
  | .int32 | .nat32 => 32
  | .int64 | .intSize | .nat64 | .natSize => 64

def isSigned : IntegerType → Bool
  | .int8 | .int16 | .int32 | .int64 | .intSize => true
  | .nat8 | .nat16 | .nat32 | .nat64 | .natSize => false

/-- The integer that a word of the type is; signed words are in two's complement. -/
def ofWord (t : IntegerType) (w : BitVec t.bits) : Int := if t.isSigned then w.toInt else w.toNat

variable {t : IntegerType} {n : Int}

theorem contains_iff : t.contains n = true ↔ t.least ≤ n ∧ n ≤ t.largest := by
  rw [contains, Bool.and_eq_true, decide_eq_true_eq, decide_eq_true_eq]

theorem least_eq (t : IntegerType) : t.least = if t.isSigned then -2 ^ (t.bits - 1) else 0 := by
  cases t <;> rfl

theorem largest_eq (t : IntegerType) :
    t.largest = if t.isSigned then 2 ^ (t.bits - 1) - 1 else 2 ^ t.bits - 1 := by
  cases t <;> rfl

theorem bits_pos (t : IntegerType) : 0 < t.bits := by
  cases t <;> decide

theorem exists_word_iff : (∃ w, t.ofWord w = n) ↔ t.least ≤ n ∧ n ≤ t.largest := by
  rw [least_eq, largest_eq]
  cases hsigned : t.isSigned with
  | true =>
    simp only [ofWord, hsigned, if_true]
    constructor
    · rintro ⟨w, rfl⟩
      exact ⟨w.le_toInt, Int.le_sub_one_of_lt BitVec.toInt_lt⟩
    · rintro ⟨hlow, hhigh⟩
      exact ⟨.ofInt _ n, BitVec.toInt_ofInt_eq_self t.bits_pos hlow (Int.lt_of_le_sub_one hhigh)⟩
  | false =>
    simp only [ofWord, hsigned, Bool.false_eq_true, if_false]
    constructor
    · rintro ⟨w, rfl⟩
      exact ⟨Int.natCast_nonneg _, Int.le_sub_one_of_lt (by exact_mod_cast w.isLt)⟩
    · rintro ⟨hlow, hhigh⟩
      obtain ⟨k, rfl⟩ := Int.eq_ofNat_of_zero_le hlow
      have hk : k < 2 ^ t.bits := by exact_mod_cast Int.lt_of_le_sub_one hhigh
      exact ⟨.ofNatLT k hk, rfl⟩

theorem toInt_ofInt_of_isNarrow (h : t.isNarrow = true) (hn : t.least ≤ n ∧ n ≤ t.largest) :
    (Int64.ofInt n).toInt = n := by
  have hrange : -2 ^ 63 ≤ t.least ∧ t.largest < 2 ^ 63 := by
    cases t with
    | intSize | nat64 | natSize => cases h
    | _ => decide
  exact Int64.toInt_ofInt_of_le (Int.le_trans hrange.1 hn.1) (Int.lt_of_le_of_lt hn.2 hrange.2)

end IntegerType

-- ---------------------------------------------------------------------------
-- Integers
-- ---------------------------------------------------------------------------

section
variable {tree : Tree}

theorem convert_integer_ok {t : IntegerType} {n : Int} :
    (Target.number (.integer t)).convert tree = .ok n ↔
      ∃ m : Int64, tree = .integer m ∧ m.toInt = n ∧ t.least ≤ n ∧ n ≤ t.largest := by
  rw [← IntegerType.contains_iff]
  cases tree with
  | integer m =>
    simp only [Target.convert, Numeric.convert, Tree.asInteger?, Tree.integer.injEq,
      exists_eq_left']
    split
    case isTrue h =>
      rw [Except.ok.injEq]
      exact ⟨fun heq => ⟨heq, heq ▸ h⟩, And.left⟩
    case isFalse h =>
      refine ⟨fun heq => ?_, fun hn => absurd (hn.1 ▸ hn.2) h⟩
      cases heq
  | _ => simp [Target.convert, Numeric.convert, Tree.asInteger?]

theorem convert_duration_ok {n : Nat} : Target.duration.convert tree = .ok n ↔
    ∃ m : Int64, tree = .integer m ∧ 0 ≤ m.toInt ∧ m.toInt = n := by
  cases tree with
  | integer m =>
    simp only [Target.convert, Tree.asInteger?, Tree.integer.injEq, exists_eq_left']
    split
    case isTrue h =>
      rw [Except.ok.injEq]
      constructor
      · rintro rfl
        exact ⟨h, (Int.toNat_of_nonneg h).symm⟩
      · rintro ⟨-, hn⟩
        rw [hn, Int.toNat_natCast]
    case isFalse h =>
      refine ⟨fun heq => ?_, fun hn => absurd hn.1 h⟩
      cases heq
  | _ => simp [Target.convert, Tree.asInteger?]

end

-- ---------------------------------------------------------------------------
-- Values that are trees
-- ---------------------------------------------------------------------------

namespace Target

/-- The targets whose values all have trees: narrow integers, flags, texts and lists of these. -/
inductive Storable : Target → Prop
  | integer {t : IntegerType} (narrow : t.isNarrow = true) : Storable (.number (.integer t))
  | flag : Storable .flag
  | text : Storable .text
  | list {t : Target} (element : Storable t) : Storable (.list t)

def Fits : (t : Target) → t.Carrier → Prop
  | .number (.integer t), n => ∃ w, t.ofWord w = n
  | .list t, xs => ∀ x ∈ xs, t.Fits x
  | _, _ => True

end Target

theorem exists_toTree {t : Target} (h : t.Storable) {x : t.Carrier} (hx : t.Fits x) :
    ∃ tree, t.toTree? x = some tree ∧ t.convert tree = .ok x := by
  induction h with
  | @integer t narrow =>
    have hrange := IntegerType.exists_word_iff.mp hx
    refine ⟨.integer (Int64.ofInt x), ?_, convert_integer_ok.mpr ⟨_, rfl, ?_, hrange⟩⟩
    · rw [Target.toTree?, Numeric.toTree?, narrow, IntegerType.contains_iff.mpr hrange]
      rfl
    · exact IntegerType.toInt_ofInt_of_isNarrow narrow hrange
  | flag => exact ⟨.boolean x, rfl, rfl⟩
  | text => exact ⟨.text x, rfl, rfl⟩
  | @list t _ ih =>
    obtain ⟨trees, htrees⟩ := forall₂_exists.mpr fun element helement => ih (hx element helement)
    refine ⟨.array trees, ?_, mapM_ok.mpr ?_⟩
    · rw [Target.toTree?, mapM_some.mpr (htrees.imp fun _ _ => And.left)]
      rfl
    · exact (htrees.imp fun _ _ => And.right).flip

/-- Integers convert exactly or not at all, a length of time is the integer of its nanoseconds, and
what is stored is read back. -/
theorem integers_exact :
    (∀ (t : IntegerType) (tree : Tree) (n : Int),
      ((Target.number (.integer t)).convert tree = .ok n ↔
        ∃ m : Int64, tree = .integer m ∧ m.toInt = n ∧ t.least ≤ n ∧ n ≤ t.largest) ∧
      (t.least ≤ n ∧ n ≤ t.largest ↔ ∃ w, t.ofWord w = n)) ∧
    (∀ (tree : Tree) (n : Nat), Target.duration.convert tree = .ok n ↔
      ∃ m : Int64, tree = .integer m ∧ 0 ≤ m.toInt ∧ m.toInt = n) ∧
    ∀ (t : Target) (x : t.Carrier), t.Storable → t.Fits x →
      ∃ tree, t.toTree? x = some tree ∧ t.convert tree = .ok x :=
  ⟨fun _ _ _ => ⟨convert_integer_ok, IntegerType.exists_word_iff.symm⟩,
    fun _ _ => convert_duration_ok, fun _ _ h => exists_toTree h⟩

theorem integers_exact_nested :
    ∃ tree, (Target.list (.list (.number (.integer .int8)))).toTree? [[-128, 127], []] = some tree ∧
      (Target.list (.list (.number (.integer .int8)))).convert tree = .ok [[-128, 127], []] := by
  refine integers_exact.2.2 (.list (.list (.number (.integer .int8)))) [[-128, 127], []]
    (.list (.list (.integer rfl))) ?_
  have hrange : ∀ element ∈ ([[-128, 127], []] : List (List Int)), ∀ n ∈ element,
      IntegerType.int8.least ≤ n ∧ n ≤ IntegerType.int8.largest := by decide
  exact fun element helement n hn => IntegerType.exists_word_iff.mpr (hrange element helement n hn)

-- ---------------------------------------------------------------------------
-- Composed targets
-- ---------------------------------------------------------------------------

theorem convert_error_inField {t : Target} {tree : Tree} {e : ConfigError}
    (h : t.convert tree = .error e) : ∃ expected found, e = .typeMismatch .value expected found ∧
      ∀ field, Except.mapError (ConfigError.inField field) (t.convert tree) =
        .error (.typeMismatch (.field field) expected found) := by
  obtain ⟨expected, found, rfl⟩ := isBare_convert h
  refine ⟨expected, found, rfl, fun field => ?_⟩
  rw [h]
  rfl

section
variable {t : Target} {tree : Tree}

theorem convert_list_ok {xs : List t.Carrier} : (Target.list t).convert tree = .ok xs ↔
    ∃ items, tree = .array items ∧
      List.Forall₂ (fun item x => t.convert item = .ok x) items xs := by
  cases tree with
  | array items =>
    simp only [Tree.array.injEq, exists_eq_left']
    exact mapM_ok
  | _ => simp [Target.convert, Tree.asArray?]

theorem convert_list_error {e : ConfigError} : (Target.list t).convert tree = .error e ↔
    (∃ items, tree = .array items ∧ First (items.map fun item e => t.convert item = .error e) e) ∨
      tree.isArray = false ∧ e = tree.mismatch .value "array" := by
  cases tree with
  | array items =>
    simp only [Tree.array.injEq, exists_eq_left', Tree.isArray, Bool.true_eq_false, false_and,
      or_false]
    exact mapM_error
  | _ => simp [Target.convert, Tree.asArray?, Tree.isArray, eq_comm]

end

section
variable {n : Numeric}

theorem convert_pair_ok {items : List Tree} {z : Complex n.Carrier} :
    (Target.complex n).convert (.array items) = .ok z ↔
      ∃ re im, items = [re, im] ∧ n.convert re = .ok z.re ∧ n.convert im = .ok z.im := by
  obtain ⟨x, y⟩ := z
  match items with
  | [re, im] =>
    have hpair : (∃ re' im', [re, im] = [re', im'] ∧ n.convert re' = .ok x ∧
        n.convert im' = .ok y) ↔ n.convert re = .ok x ∧ n.convert im = .ok y := by
      simp
    rw [hpair]
    simp only [Target.convert]
    cases n.convert re with
    | error e => simp
    | ok re =>
      cases n.convert im with
      | error e => simp
      | ok im => simp
  | [] | [_] | _ :: _ :: _ :: _ => simp [Target.convert]

theorem Numeric.convert_zero (n : Numeric) : n.convert (.integer 0) = .ok n.zero := by
  cases n with
  | integer t => cases t <;> rfl
  | real p => cases p <;> decide +kernel

theorem convert_complex_leaf {tree : Tree} (harray : tree.isArray = false)
    (hmap : tree.isMap = false) :
    (Target.complex n).convert tree = (Target.complex n).convert (.array [tree, .integer 0]) := by
  cases tree with
  | array items => cases harray
  | map entries => cases hmap
  | _ =>
    simp only [Target.convert, Numeric.convert_zero]

end

/-- A failed conversion is a mismatch of the bare value, which a field of any name takes over. Lists
and complex numbers convert part by part, and a number alone is a complex one without imaginary
part. -/
theorem convert_by_parts :
    (∀ (t : Target) (tree : Tree) (e : ConfigError), t.convert tree = .error e →
      ∃ expected found, e = .typeMismatch .value expected found ∧
        ∀ field, Except.mapError (ConfigError.inField field) (t.convert tree) =
          .error (.typeMismatch (.field field) expected found)) ∧
    (∀ (t : Target) (tree : Tree),
      (∀ xs : List t.Carrier, (Target.list t).convert tree = .ok xs ↔ ∃ items,
        tree = .array items ∧ List.Forall₂ (fun item x => t.convert item = .ok x) items xs) ∧
      ∀ e, (Target.list t).convert tree = .error e ↔
        (∃ items, tree = .array items ∧
          First (items.map fun item e => t.convert item = .error e) e) ∨
        tree.isArray = false ∧ e = tree.mismatch .value "array") ∧
    ∀ n : Numeric,
      (∀ (items : List Tree) (z : Complex n.Carrier),
        (Target.complex n).convert (.array items) = .ok z ↔
          ∃ re im, items = [re, im] ∧ n.convert re = .ok z.re ∧ n.convert im = .ok z.im) ∧
      (∀ entries, ∃ e, (Target.complex n).convert (.map entries) = .error e) ∧
      ∀ tree : Tree, tree.isArray = false → tree.isMap = false →
        (Target.complex n).convert tree = (Target.complex n).convert (.array [tree, .integer 0]) :=
  ⟨fun _ _ _ h => convert_error_inField h,
    fun _ _ => ⟨fun _ => convert_list_ok, fun _ => convert_list_error⟩,
    fun _ => ⟨fun _ _ => convert_pair_ok, fun _ => ⟨_, rfl⟩, fun _ => convert_complex_leaf⟩⟩

theorem convert_by_parts_out_of_range :
    (∃ expected found, Except.mapError (ConfigError.inField "weights")
      ((Target.list (.number (.integer .int8))).convert (.array [.integer 1, .integer 300])) =
        .error (.typeMismatch (.field "weights") expected found)) ∧
    (Target.complex (.integer .int8)).convert (.integer 300) =
      (Target.complex (.integer .int8)).convert (.array [.integer 300, .integer 0]) := by
  obtain ⟨expected, found, -, hfield⟩ :=
    convert_by_parts.1 (.list (.number (.integer .int8))) (.array [.integer 1, .integer 300])
      ((Tree.integer 300).mismatch .value "i8") rfl
  exact ⟨⟨expected, found, hfield "weights"⟩,
    (convert_by_parts.2.2 (.integer .int8)).2.2 (.integer 300) rfl rfl⟩

end SolverConfig
