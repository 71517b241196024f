import SolverConfig.Proofs.Values

/-!
# Equality of trees

Trees without repeated keys are equal exactly if one is the other with the entries of maps in
another order and with equal numbers for its reals. Equality of maps looks up the keys of one in the
other only, but as both are of one size it speaks of the keys of both, and so it is symmetric.
-/

namespace SolverConfig

-- ---------------------------------------------------------------------------
-- What equality means
-- ---------------------------------------------------------------------------

/-- Numbers that are equal: a number and itself, and zeros of any signs. -/
inductive Binary.Equal {F : BinaryFormat} : Binary F → Binary F → Prop
  | refl {x : Binary F} (number : x.isNaN = false) : Equal x x
  | zeros {x y : Binary F} (left : x.isZero = true) (right : y.isZero = true) : Equal x y

/-- The second tree is the first with the entries of maps in another order and with equal numbers
for its reals. -/
inductive Tree.Equal : Tree → Tree → Prop
  | empty : Equal .empty .empty
  | boolean {b : Bool} : Equal (.boolean b) (.boolean b)
  | integer {n : Int64} : Equal (.integer n) (.integer n)
  | real {x y : Double} (numbers : x.Equal y) : Equal (.real x) (.real y)
  | text {s : String} : Equal (.text s) (.text s)
  | array {items others : List Tree} (each : List.Forall₂ Equal items others) :
      Equal (.array items) (.array others)
  | map {entries middle others : Tree.Entries} (each : List.Forall₂ (Keyed Equal) entries middle)
      (order : middle.Perm others) : Equal (.map entries) (.map others)

-- ---------------------------------------------------------------------------
-- Equality by form
-- ---------------------------------------------------------------------------

namespace Binary

variable {F : BinaryFormat} {x y : Binary F}

theorem isNaN_of_isZero (h : x.isZero = true) : x.isNaN = false := by
  rw [eq_zero_of_isZero h]
  exact isNaN_zero _

theorem same_iff_equal : x.same y = true ↔ x.Equal y := by
  constructor
  · intro h
    simp only [same, Bool.and_eq_true, Bool.or_eq_true, Bool.not_eq_true', beq_iff_eq] at h
    obtain ⟨⟨hx, -⟩, rfl | ⟨hzx, hzy⟩⟩ := h
    · exact .refl hx
    · exact .zeros hzx hzy
  · rintro (hx | ⟨hzx, hzy⟩)
    · rw [same_self, hx]
      rfl
    · simp [same, isNaN_of_isZero hzx, isNaN_of_isZero hzy, hzx, hzy]

end Binary

namespace Tree

variable {t u v : Tree} {entries others : Entries}

theorem same_map_iff (hl : (entries.map Prod.fst).Nodup) (hr : (others.map Prod.fst).Nodup) :
    (Tree.map entries).same (.map others) = true ↔
      ∀ key, Option.Rel (fun t u => t.same u = true) (entries.lookup key) (others.lookup key) := by
  rw [same_map]
  constructor
  · rintro ⟨hlength, hall⟩ key
    have hkeys := keys_perm_of_same hl (same_map.mpr ⟨hlength, hall⟩)
    cases ht : entries.lookup key with
    | none =>
      rw [lookup_eq_none_iff, hkeys.mem_iff, ← lookup_eq_none_iff] at ht
      rw [ht]
      exact .none
    | some t =>
      obtain ⟨u, hu, hsame⟩ := hall _ (mem_of_lookup ht)
      rw [hu]
      exact .some hsame
  · intro h
    have hkeys := (keys_perm_of_rel hl hr h).length_eq
    rw [List.length_map, List.length_map] at hkeys
    refine ⟨hkeys, fun entry he => ?_⟩
    have hkey := h entry.1
    rw [lookup_of_mem hl he] at hkey
    generalize others.lookup entry.1 = y at hkey
    cases hkey with
    | some hsame => exact ⟨_, rfl, hsame⟩

theorem same_of_match (hl : t.Distinct) (hr : u.Distinct) (h : Match False t u) :
    t.same u = true := by
  cases h with
  | leaf ha hm hn =>
    cases t with
    | real x => exact Binary.same_iff_equal.mpr (.refl (by simpa using hn))
    | array items => cases ha
    | map entries => cases hm
    | _ => simp [Tree.same]
  | zeros hx hy => exact Binary.same_iff_equal.mpr (.zeros hx hy)
  | array each =>
    rw [Tree.same, sameItems_iff]
    exact each.imp fun _ _ h => h.same
  | map each =>
    refine (same_map_iff (distinct_map.mp hl).1 (distinct_map.mp hr).1).mpr fun key => ?_
    exact optionRel_imp (each key) fun _ _ _ h => h.same

theorem alike_of_match (hl : t.Distinct) (hr : u.Distinct) (h : Match False t u) :
    t.Alike False u :=
  ⟨same_of_match hl hr h, False.elim, hl, hr⟩

-- ---------------------------------------------------------------------------
-- Laws of equality
-- ---------------------------------------------------------------------------

theorem Alike.symm (h : t.Alike False u) : u.Alike False t := by
  induction t using Tree.induction generalizing u with
  | leaf t ha hm =>
    refine alike_of_match h.right h.left ?_
    cases h.parts with
    | leaf ha hm hn => exact .leaf ha hm hn
    | zeros hx hy hne => exact .zeros hy hx hne
    | array _ => cases ha
    | map _ => cases hm
  | array items ih =>
    refine alike_of_match h.right h.left ?_
    cases h.parts with
    | leaf ha _ _ => cases ha
    | array each => exact .array (forall₂_imp (fun item hi _ => ih item hi) each).flip
  | map entries ih =>
    refine alike_of_match h.right h.left ?_
    cases h.parts with
    | leaf _ hm _ => cases hm
    | map each =>
      exact .map fun key => optionRel_symm (each key) fun _ _ ht => ih _ (mem_of_lookup ht)

theorem Alike.trans (h : t.Alike False u) (h' : u.Alike False v) : t.Alike False v := by
  induction t using Tree.induction generalizing u v with
  | leaf t ha hm =>
    cases h.parts with
    | leaf _ _ _ => exact h'
    | zeros hx _ hne =>
      refine alike_of_match h.left h'.right ?_
      cases h'.parts with
      | leaf _ _ _ => exact h.parts
      | zeros _ hz _ => exact .zeros hx hz hne
    | array _ => cases ha
    | map _ => cases hm
  | array items ih =>
    cases h.parts with
    | leaf ha _ _ => cases ha
    | array each =>
      refine alike_of_match h.left h'.right ?_
      cases h'.parts with
      | leaf ha _ _ => cases ha
      | array each' => exact .array (forall₂_trans each each' fun item hi _ _ => ih item hi)
  | map entries ih =>
    cases h.parts with
    | leaf _ hm _ => cases hm
    | map each =>
      refine alike_of_match h.left h'.right ?_
      cases h'.parts with
      | leaf _ hm _ => cases hm
      | map each' =>
        refine .map fun key => optionRel_trans (each key) (each' key) fun t _ _ ht => ?_
        exact ih _ (mem_of_lookup ht)

theorem same_self_iff (h : t.Distinct) : t.same t = true ↔ ¬t.HoldsNaN := by
  induction t using Tree.induction with
  | leaf t ha hm =>
    cases t with
    | empty => exact iff_of_true rfl nofun
    | boolean b => exact iff_of_true (beq_self_eq_true b) not_holdsNaN_boolean
    | integer n => exact iff_of_true (beq_self_eq_true n) not_holdsNaN_integer
    | text s => exact iff_of_true (beq_self_eq_true s) not_holdsNaN_text
    | real x => simp [Tree.same, Binary.same_self]
    | array items => cases ha
    | map entries => cases hm
  | array items ih =>
    have hitems := distinct_array.mp h
    rw [Tree.same, sameItems_iff, List.forall₂_same, holdsNaN_array, not_exists]
    refine forall_congr' fun item => ?_
    rw [not_and]
    exact forall_congr' fun hi => ih item hi (hitems item hi)
  | map entries ih =>
    obtain ⟨hkeys, hentries⟩ := distinct_map.mp h
    have hself : ∀ key t, entries.lookup key = some t → (t.same t = true ↔ ¬t.HoldsNaN) :=
      fun key t ht => ih _ (mem_of_lookup ht) (hentries _ (mem_of_lookup ht))
    -- With distinct keys, an entry is compared to what its own key looks up, that is to itself.
    rw [same_map_iff hkeys hkeys, holdsNaN_map]
    constructor
    · rintro hall ⟨key, t, ht, hn⟩
      have hkey := hall key
      rw [ht] at hkey
      cases hkey with
      | some hsame => exact (hself key t ht).mp hsame hn
    · intro hn key
      cases ht : entries.lookup key with
      | none => exact .none
      | some t => exact .some ((hself key t ht).mpr fun hnt => hn ⟨key, t, ht, hnt⟩)

-- ---------------------------------------------------------------------------
-- Equal trees, entry by entry
-- ---------------------------------------------------------------------------

theorem Alike.equal (h : t.Alike False u) : t.Equal u := by
  induction t using Tree.induction generalizing u with
  | leaf t ha hm =>
    cases h.parts with
    | leaf _ _ hn =>
      cases t with
      | empty => exact .empty
      | boolean b => exact .boolean
      | integer n => exact .integer
      | text s => exact .text
      | real x => exact .real (.refl (by simpa using hn))
      | array items => cases ha
      | map entries => cases hm
    | zeros hx hy _ => exact .real (.zeros hx hy)
    | array _ => cases ha
    | map _ => cases hm
  | array items ih =>
    cases h.parts with
    | leaf ha _ _ => cases ha
    | array each => exact .array (forall₂_imp (fun item hi _ => ih item hi) each)
  | map entries ih =>
    cases h.parts with
    | leaf _ hm _ => cases hm
    | map each =>
      have hl := (distinct_map.mp h.left).1
      have hr := (distinct_map.mp h.right).1
      obtain ⟨middle, hmiddle, horder⟩ := (forall_lookup_iff hl hr).mp fun key =>
        optionRel_imp (each key) fun _ _ ht => ih _ (mem_of_lookup ht)
      exact .map hmiddle horder

theorem Equal.alike (h : t.Equal u) (ht : t.Distinct) : t.Alike False u := by
  induction t using Tree.induction generalizing u with
  | leaf t ha hm =>
    have hu : u.Distinct := by
      cases h with
      | array _ => cases ha
      | map _ _ => cases hm
      | _ => exact .leaf rfl rfl
    refine alike_of_match ht hu ?_
    cases h with
    | real h =>
      cases h with
      | refl hx => exact .leaf rfl rfl (by simp [hx])
      | zeros hx hy => exact .zeros hx hy not_false
    | array _ => cases ha
    | map _ _ => cases hm
    | _ => exact .leaf rfl rfl nofun
  | array items ih =>
    cases h with
    | @array _ others each =>
      have hitems := distinct_array.mp ht
      have heach : List.Forall₂ (Alike False) items others :=
        forall₂_imp (fun item hi _ h => ih item hi h (hitems item hi)) each
      have hothers : ∀ u ∈ others, u.Distinct :=
        (forall_mem_iff_of_forall₂ heach fun _ _ _ h => iff_of_true h.right h.left).mpr hitems
      exact alike_of_match ht (distinct_array.mpr hothers) (.array heach)
  | map entries ih =>
    cases h with
    | @map _ middle others each order =>
      obtain ⟨hkeys, hentries⟩ := distinct_map.mp ht
      have heach : List.Forall₂ (Keyed (Alike False)) entries middle :=
        Keyed.forall₂_imp each fun entry he _ h => ih entry he h (hentries entry he)
      have hkeys' : (others.map Prod.fst).Nodup := by
        rwa [← (order.map Prod.fst).nodup_iff, ← Keyed.keys_eq heach]
      -- Distinctness moves to the other side: over equal entries first, then past their new order.
      have hmiddle : ∀ other ∈ middle, other.2.Distinct := by
        refine (forall_mem_iff_of_forall₂ heach fun _ _ _ h => ?_).mpr hentries
        have h := (Keyed.iff.mp h).2
        exact iff_of_true h.right h.left
      have hothers : (Tree.map others).Distinct :=
        distinct_map.mpr ⟨hkeys', fun other ho => hmiddle other (order.mem_iff.mpr ho)⟩
      exact alike_of_match ht hothers (.map ((forall_lookup_iff hkeys hkeys').mpr
        ⟨middle, heach, order⟩))

end Tree

/-- Trees without repeated keys are equal exactly if one is the other with reordered entries and
equal numbers. Equality is symmetric and transitive, and a tree differs from itself only if a real
in it is not a number. -/
theorem same_trees {t u v : Tree} (ht : t.Distinct) (hu : u.Distinct) (hv : v.Distinct) :
    (t.same u = true ↔ t.Equal u) ∧ (t.same u = true → u.same t = true) ∧
      (t.same u = true → u.same v = true → t.same v = true) ∧
      (t.same t = true ↔ ¬t.HoldsNaN) := by
  have htu : t.same u = true → t.Alike False u := fun h => ⟨h, False.elim, ht, hu⟩
  have huv : u.same v = true → u.Alike False v := fun h => ⟨h, False.elim, hu, hv⟩
  refine ⟨⟨fun h => (htu h).equal, fun h => (h.alike ht).same⟩, fun h => (htu h).symm.same,
    fun h h' => ((htu h).trans (huv h')).same, Tree.same_self_iff ht⟩

theorem same_trees_zeros :
    let first (x : Double) : Tree :=
      .map [("reduction_factor", .real x), ("Type", .text "ResidualNorm")]
    let second (x : Double) : Tree :=
      .map [("Type", .text "ResidualNorm"), ("reduction_factor", .real x)]
    let t : Tree := .map [("max_iters", .integer 5), ("criteria", .array [first (.zero false)])]
    let u : Tree := .map [("criteria", .array [second (.zero true)]), ("max_iters", .integer 5)]
    let v : Tree := .map [("criteria", .array [second (.zero false)]), ("max_iters", .integer 5)]
    t.Distinct ∧ u.Distinct ∧ v.Distinct ∧ t.Equal u ∧ u.same t = true ∧ t.same v = true ∧
      ¬t.HoldsNaN := by
  intro first second t u v
  have hleaf : (∀ s, (Tree.text s).Distinct) ∧ (∀ x, (Tree.real x).Distinct) ∧
      ∀ n, (Tree.integer n).Distinct :=
    ⟨fun _ => .leaf rfl rfl, fun _ => .leaf rfl rfl, fun _ => .leaf rfl rfl⟩
  have ht : t.Distinct := by simp [t, first, Tree.distinct_map, Tree.distinct_array, hleaf]
  have hu : u.Distinct := by simp [u, second, Tree.distinct_map, Tree.distinct_array, hleaf]
  have hv : v.Distinct := by simp [v, second, Tree.distinct_map, Tree.distinct_array, hleaf]
  have htu : t.same u = true := by decide
  have huv : u.same v = true := by decide
  have htt : t.same t = true := by decide
  obtain ⟨hequal, hsymm, htrans, hself⟩ := same_trees ht hu hv
  exact ⟨ht, hu, hv, hequal.mp htu, hsymm htu, htrans htu huv, hself.mp htt⟩

/-- An integer equals no real, whatever their values. -/
example : (Tree.integer 1).same (.real (.ofNat 1)) = false := rfl

end SolverConfig
