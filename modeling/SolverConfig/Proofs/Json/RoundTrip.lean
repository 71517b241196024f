import SolverConfig.Proofs.Alike
import SolverConfig.Proofs.Json.Numerals
import SolverConfig.Proofs.Json.Routes

/-!
# Reading back what is written

The text of a tree whose maps have no key twice is read back as the tree itself, unless it nests too
deep or has reals. A finite real is read back as a real, if at all, and all else as it was.
-/

namespace SolverConfig

-- ---------------------------------------------------------------------------
-- Trees
-- ---------------------------------------------------------------------------

namespace Tree

inductive NestsWithin : Tree → Nat → Prop
  | leaf {t : Tree} {depth : Nat} (notArray : t.isArray = false) (notMap : t.isMap = false) :
      NestsWithin t depth
  | array {items : List Tree} {depth : Nat} (each : ∀ item ∈ items, NestsWithin item depth) :
      NestsWithin (.array items) (depth + 1)
  | map {entries : Entries} {depth : Nat} (each : ∀ entry ∈ entries, NestsWithin entry.2 depth) :
      NestsWithin (.map entries) (depth + 1)

inductive Reals (P : Double → Prop) : Tree → Prop
  | leaf {t : Tree} (notArray : t.isArray = false) (notMap : t.isMap = false)
      (real : ∀ x, t = .real x → P x) : Reals P t
  | array {items : List Tree} (each : ∀ item ∈ items, Reals P item) : Reals P (.array items)
  | map {entries : Entries} (each : ∀ entry ∈ entries, Reals P entry.2) : Reals P (.map entries)

/-- The trees are the same but for their reals, which are related. -/
inductive SameBut (R : Double → Double → Prop) : Tree → Tree → Prop
  | empty : SameBut R .empty .empty
  | boolean {b : Bool} : SameBut R (.boolean b) (.boolean b)
  | integer {n : Int64} : SameBut R (.integer n) (.integer n)
  | real {x y : Double} (related : R x y) : SameBut R (.real x) (.real y)
  | text {s : String} : SameBut R (.text s) (.text s)
  | array {items others : List Tree} (each : List.Forall₂ (SameBut R) items others) :
      SameBut R (.array items) (.array others)
  | map {entries others : Entries} (each : List.Forall₂ (Keyed (SameBut R)) entries others) :
      SameBut R (.map entries) (.map others)

theorem nestsWithin_array {items : List Tree} {depth : Nat} :
    NestsWithin (.array items) depth ↔
      ∃ below, depth = below + 1 ∧ ∀ item ∈ items, item.NestsWithin below := by
  constructor
  · rintro (⟨h, -⟩ | h | _)
    · cases h
    · exact ⟨_, rfl, h⟩
  · rintro ⟨_, rfl, h⟩
    exact .array h

theorem nestsWithin_map {entries : Entries} {depth : Nat} :
    NestsWithin (.map entries) depth ↔
      ∃ below, depth = below + 1 ∧ ∀ entry ∈ entries, entry.2.NestsWithin below := by
  constructor
  · rintro (⟨-, h⟩ | _ | h)
    · cases h
    · exact ⟨_, rfl, h⟩
  · rintro ⟨_, rfl, h⟩
    exact .map h

section
variable {P Q : Double → Prop} {R : Double → Double → Prop}

theorem reals_array {items : List Tree} :
    Reals P (.array items) ↔ ∀ item ∈ items, item.Reals P := by
  constructor
  · rintro (⟨h, -⟩ | h | _)
    · cases h
    · exact h
  · exact .array

theorem reals_map {entries : Entries} :
    Reals P (.map entries) ↔ ∀ entry ∈ entries, entry.2.Reals P := by
  constructor
  · rintro (⟨-, h⟩ | _ | h)
    · cases h
    · exact h
  · exact .map

theorem Reals.mono {t : Tree} (h : t.Reals P) (hPQ : ∀ x, P x → Q x) : t.Reals Q := by
  induction h with
  | leaf ha hm hreal => exact .leaf ha hm fun x hx => hPQ x (hreal x hx)
  | array _ ih => exact .array ih
  | map _ ih => exact .map ih

theorem sameBut_array {items : List Tree} {t : Tree} : SameBut R (.array items) t ↔
    ∃ others, t = .array others ∧ List.Forall₂ (SameBut R) items others := by
  constructor
  · rintro (_ | _ | _ | _ | _ | h)
    exact ⟨_, rfl, h⟩
  · rintro ⟨_, rfl, h⟩
    exact .array h

theorem sameBut_map {entries : Entries} {t : Tree} : SameBut R (.map entries) t ↔
    ∃ others, t = .map others ∧ List.Forall₂ (Keyed (SameBut R)) entries others := by
  constructor
  · rintro (_ | _ | _ | _ | _ | _ | h)
    exact ⟨_, rfl, h⟩
  · rintro ⟨_, rfl, h⟩
    exact .map h

theorem Reals.sameBut_self {t : Tree} (h : t.Reals fun x => R x x) : t.SameBut R t := by
  induction h with
  | @leaf t ha hm hreal =>
    cases t with
    | empty => exact .empty
    | boolean b => exact .boolean
    | integer n => exact .integer
    | real x => exact .real (hreal x rfl)
    | text s => exact .text
    | array items => cases ha
    | map entries => cases hm
  | array _ ih => exact .array (List.forall₂_same.mpr ih)
  | map _ ih => exact .map (List.forall₂_same.mpr fun entry h => Keyed.iff.mpr ⟨rfl, ih entry h⟩)

end

theorem writeJsonItems_eq (items : List Tree) :
    writeJsonItems items = items.map writeJson := by
  induction items with
  | nil => rfl
  | cons t rest ih => rw [writeJsonItems, ih, List.map_cons]

theorem writeJsonEntries_eq (entries : Entries) :
    writeJsonEntries entries = List.zipWith Json.spellEntry
      (entries.map fun entry => Json.writeText entry.1)
      (entries.map fun entry => entry.2.writeJson) := by
  induction entries with
  | nil => rfl
  | cons entry rest ih =>
    rw [writeJsonEntries, ih]
    rfl

end Tree

namespace Json

-- ---------------------------------------------------------------------------
-- Strings
-- ---------------------------------------------------------------------------

theorem spellsUnit_unitDigits {n : Nat} (h : n < 0x20) : SpellsUnit n (unitDigits n) := by
  have hdigits : ∀ n < 0x20,
      unitDigits n = ['0', '0', (n / 16).digitChar, (n % 16).digitChar] := by decide
  have hvalue : ∀ d < 16, hexValue? d.digitChar = some d := by decide
  have hspells := @SpellsUnit.digits '0' '0' _ _ 0 0 _ _ rfl rfl (hvalue (n / 16) (by omega))
    (hvalue (n % 16) (by omega))
  have hsum : 16 * (16 * (16 * 0 + 0) + n / 16) + n % 16 = n := by omega
  rw [hsum] at hspells
  rwa [hdigits n h]

theorem spellsChar_escapeChar (c : Char) : SpellsChar c (escapeChar c) := by
  unfold escapeChar
  split
  case h_8 hquote hbackslash _ _ _ _ _ =>
    split
    · rename_i hcontrol
      have hspells := SpellsChar.unit (spellsUnit_unitDigits hcontrol) ?_ ?_
      rwa [Char.ofNat_toNat] at hspells
      all_goals simp [PartialText.isHigh, PartialText.isLow]; omega
    · rename_i hprinted
      exact .plain hquote hbackslash (Nat.not_lt.mp hprinted)
  all_goals exact .escape rfl

theorem spellsText_escape (content : List Char) :
    SpellsText content (content.flatMap escapeChar) := by
  induction content with
  | nil => exact .nil
  | cons c content ih => exact .cons (spellsChar_escapeChar c) ih

theorem spellsKey_writeText (key : String) : SpellsKey key (writeText key) :=
  .quoted (spellsText_escape key.toList) blanks_nil blanks_nil

-- ---------------------------------------------------------------------------
-- Documents
-- ---------------------------------------------------------------------------

/-- The document that a tree is written as. Its numbers are what is written for those in the
tree. -/
inductive Written : Tree → Document → Prop
  | empty : Written .empty .null
  | boolean {b : Bool} : Written (.boolean b) (.boolean b)
  | integer {n : Int64} {l : NumberLiteral}
      (spells : SpellsNumber l (Decimal.integerDigits n.toInt)) :
      Written (.integer n) (.number l)
  | real {x : Double} {l : NumberLiteral} (finite : x.isFinite = true)
      (spells : SpellsNumber l (x.text .document)) : Written (.real x) (.number l)
  | text {s : String} : Written (.text s) (.text s)
  | array {items : List Tree} {parts : List Document} (each : List.Forall₂ Written items parts) :
      Written (.array items) (.array parts)
  | map {entries : Tree.Entries} {parts : List (String × Document)}
      (each : List.Forall₂ (Keyed Written) entries parts) : Written (.map entries) (.object parts)

/-- A real and the number that its text is read as. -/
def Respelled (x y : Double) : Prop :=
  ∃ l, SpellsNumber l (x.text .document) ∧ l.scaled? = some y

theorem exists_written {t : Tree} (h : t.Reals fun x => x.isFinite = true) :
    ∃ D, Written t D := by
  induction t using Tree.induction with
  | leaf t ha hm =>
    cases t with
    | empty => exact ⟨_, .empty⟩
    | boolean b => exact ⟨_, .boolean⟩
    | integer n => exact ⟨_, .integer (spellsNumber_integerDigits n.toInt)⟩
    | real x =>
      cases h with | leaf _ _ hreal =>
      obtain ⟨l, hl, -⟩ := exists_spellsNumber_text .document rfl (hreal x rfl)
      exact ⟨_, .real (hreal x rfl) hl⟩
    | text s => exact ⟨_, .text⟩
    | array items => cases ha
    | map entries => cases hm
  | array items ih =>
    rw [Tree.reals_array] at h
    obtain ⟨parts, hparts⟩ := forall₂_exists.mpr fun item hitem => ih item hitem (h item hitem)
    exact ⟨_, .array hparts⟩
  | map entries ih =>
    rw [Tree.reals_map] at h
    obtain ⟨parts, hparts⟩ :=
      Keyed.forall₂_exists.mpr fun entry hentry => ih entry hentry (h entry hentry)
    exact ⟨_, .map hparts⟩

theorem spells_leaf {D : Document} {cs : List Char} (h : SpellsLeaf D cs) : Spells D cs := by
  have hspells := Spells.of_leaf h blanks_nil
  rwa [List.nil_append] at hspells

namespace Written

theorem spells {t : Tree} {D : Document} (h : Written t D) : Spells D t.writeJson := by
  induction t using Tree.induction generalizing D with
  | leaf t ha hm =>
    cases h with
    | empty => exact spells_leaf .null
    | @boolean b =>
      cases b with
      | true => exact spells_leaf .trueWord
      | false => exact spells_leaf .falseWord
    | integer hl => exact spells_leaf (.number hl)
    | real hx hl =>
      rw [Tree.writeJson, if_pos hx]
      exact spells_leaf (.number hl)
    | text => exact spells_leaf (.text (spellsText_escape _))
    | array => cases ha
    | map => cases hm
  | array items ih =>
    cases h with | @array _ parts hparts =>
    have heach : List.Forall₂ Spells parts (items.map Tree.writeJson) := by
      rw [List.forall₂_map_right_iff]
      exact (forall₂_imp (fun item hitem _ => ih item hitem) hparts).flip
    rw [Tree.writeJson, Tree.writeJsonItems_eq]
    exact .array heach blanks_nil blanks_nil blanks_nil
  | map entries ih =>
    cases h with | @map _ parts hparts =>
    have hkeys : List.Forall₂ SpellsKey (parts.map Prod.fst)
        (entries.map fun entry => writeText entry.1) := by
      rw [← Keyed.keys_eq hparts, List.forall₂_map_left_iff, List.forall₂_map_right_iff]
      exact List.forall₂_same.mpr fun entry _ => spellsKey_writeText entry.1
    have heach : List.Forall₂ Spells (parts.map Prod.snd)
        (entries.map fun entry => entry.2.writeJson) := by
      rw [List.forall₂_map_left_iff, List.forall₂_map_right_iff]
      refine (forall₂_imp (fun entry hentry part hpart => ?_) hparts).flip
      exact ih entry hentry (Keyed.iff.mp hpart).2
    rw [Tree.writeJson, Tree.writeJsonEntries_eq]
    exact .object hkeys heach blanks_nil blanks_nil blanks_nil

theorem isNested_leaf {t : Tree} {D : Document} (h : Written t D) (ha : t.isArray = false)
    (hm : t.isMap = false) : D.isNested = false := by
  cases h with
  | array => cases ha
  | map => cases hm
  | _ => rfl

theorem distinct_iff {t : Tree} {D : Document} (h : Written t D) : D.Distinct ↔ t.Distinct := by
  induction t using Tree.induction generalizing D with
  | leaf t ha hm => exact iff_of_true (.single (h.isNested_leaf ha hm)) (.leaf ha hm)
  | array items ih =>
    cases h with | array hparts =>
    rw [Document.distinct_array, Tree.distinct_array]
    exact forall_mem_iff_of_forall₂ hparts fun item hitem _ => ih item hitem
  | map entries ih =>
    cases h with | map hparts =>
    rw [Document.distinct_object, Tree.distinct_map, Keyed.keys_eq hparts]
    refine and_congr_right fun _ => ?_
    refine forall_mem_iff_of_forall₂ hparts fun entry hentry part hpart => ?_
    exact ih entry hentry (Keyed.iff.mp hpart).2

theorem nestsWithin_iff {t : Tree} {D : Document} {depth : Nat} (h : Written t D) :
    D.NestsWithin depth ↔ t.NestsWithin depth := by
  induction t using Tree.induction generalizing D depth with
  | leaf t ha hm => exact iff_of_true (.single (h.isNested_leaf ha hm)) (.leaf ha hm)
  | array items ih =>
    cases h with | array hparts =>
    rw [Document.nestsWithin_array, Tree.nestsWithin_array]
    refine exists_congr fun below => and_congr_right fun _ => ?_
    exact forall_mem_iff_of_forall₂ hparts fun item hitem _ => ih item hitem
  | map entries ih =>
    cases h with | map hparts =>
    rw [Document.nestsWithin_object, Tree.nestsWithin_map]
    refine exists_congr fun below => and_congr_right fun _ => ?_
    refine forall_mem_iff_of_forall₂ hparts fun entry hentry part hpart => ?_
    exact ih entry hentry (Keyed.iff.mp hpart).2

theorem readsAs_real {x : Double} {l : NumberLiteral} {u : Tree} (hx : x.isFinite = true)
    (hl : SpellsNumber l (x.text .document)) :
    l.ReadsAs u ↔ (Tree.real x).SameBut Respelled u := by
  obtain ⟨l', hl', hwhole⟩ := exists_spellsNumber_text .document rfl hx
  obtain rfl := hl.unique hl'
  constructor
  · rintro (⟨hinteger, -⟩ | ⟨-, hscaled⟩)
    · rw [hwhole] at hinteger
      cases hinteger
    · exact .real ⟨l, hl, hscaled⟩
  · rintro (_ | _ | _ | ⟨l', hl', hscaled⟩)
    obtain rfl := hl.unique hl'
    refine .real (fun hinteger => ?_) hscaled
    rw [hwhole] at hinteger
    cases hinteger

theorem readsAs_iff {t u : Tree} {D : Document} (h : Written t D) :
    D.ReadsAs u ↔ t.SameBut Respelled u := by
  -- Numbers alone may be read as other trees; arrays and objects hand the relation on to their
  -- parts.
  induction t using Tree.induction generalizing D u with
  | leaf t ha hm =>
    cases h with
    | integer hl =>
      rw [Document.readsAs_number, readsAs_integerDigits hl]
      constructor
      · rintro rfl
        exact .integer
      · rintro ⟨⟩
        rfl
    | real hx hl => rw [Document.readsAs_number, readsAs_real hx hl]
    | array => cases ha
    | map => cases hm
    | _ =>
      constructor
      · rintro ⟨⟩
        constructor
      · rintro ⟨⟩
        constructor
  | array items ih =>
    cases h with | array hparts =>
    rw [Document.readsAs_array, Tree.sameBut_array]
    refine exists_congr fun others => and_congr_right fun _ => ?_
    refine forall₂_congr_left hparts fun item hitem part hpart u => ?_
    exact ih item hitem hpart
  | map entries ih =>
    cases h with | map hparts =>
    rw [Document.readsAs_object, Tree.sameBut_map]
    refine exists_congr fun others => and_congr_right fun _ => ?_
    refine forall₂_congr_left hparts fun entry hentry part hpart u => ?_
    obtain ⟨hkey, hvalue⟩ := Keyed.iff.mp hpart
    rw [Keyed.iff, Keyed.iff, hkey, ih entry hentry hvalue]

end Written

-- ---------------------------------------------------------------------------
-- Texts
-- ---------------------------------------------------------------------------

/-- The text of a tree is read back as the trees that have, for each of its reals, what the text of
that real denotes, and are the same otherwise. -/
theorem ofJson_toJson_ok {t u : Tree} (hdistinct : t.Distinct) (hnests : t.NestsWithin maxDepth)
    (hfinite : t.Reals fun x => x.isFinite = true) :
    Tree.ofJson t.toJson = .ok u ↔ t.SameBut Respelled u := by
  obtain ⟨D, hD⟩ := exists_written hfinite
  have hspells : Spells D t.toJson.toList := by
    rw [Tree.toJson, String.toList_ofList]
    exact hD.spells
  rw [ofJson_ok hspells, hD.nestsWithin_iff, hD.distinct_iff, hD.readsAs_iff]
  exact and_iff_right ⟨hnests, hdistinct⟩

/-- The text of a tree in which no key is repeated and that does not nest too deep is read back as
the tree itself if it has no reals. If its reals are finite, every one is read back as a real, if
the text is read at all, and everything else as it was. -/
theorem ofJson_toJson {t : Tree} (hdistinct : t.Distinct) (hnests : t.NestsWithin maxDepth) :
    ((t.Reals fun _ => False) → Tree.ofJson t.toJson = .ok t) ∧
      ((t.Reals fun x => x.isFinite = true) →
        ∀ u, Tree.ofJson t.toJson = .ok u ↔ t.SameBut Respelled u) := by
  refine ⟨fun hreals => ?_, fun hfinite u => ofJson_toJson_ok hdistinct hnests hfinite⟩
  refine (ofJson_toJson_ok hdistinct hnests (hreals.mono nofun)).mpr ?_
  exact (hreals.mono nofun).sameBut_self

theorem ofJson_toJson_escaped :
    (∃ t, t = Tree.map [("\"\n", .array [.integer Int64.minValue, .text "\\\x01"])] ∧
        t.Distinct ∧ t.NestsWithin maxDepth ∧ (t.Reals fun _ => False) ∧
          Tree.ofJson t.toJson = .ok t) ∧
      ∃ t, t = Tree.array [.real (.ofRatio false 3 2)] ∧ t.Distinct ∧ t.NestsWithin maxDepth ∧
        (t.Reals fun x => x.isFinite = true) ∧ Tree.ofJson t.toJson = .ok t := by
  constructor
  · refine ⟨_, rfl, ?distinct, ?nests, ?reals, (ofJson_toJson ?distinct ?nests).1 ?reals⟩
    case distinct =>
      refine .map (by decide) (List.forall_mem_singleton.mpr (.array ?_))
      exact List.forall_mem_cons.mpr ⟨.leaf rfl rfl, List.forall_mem_singleton.mpr (.leaf rfl rfl)⟩
    case nests =>
      refine .map (List.forall_mem_singleton.mpr (.array ?_))
      exact List.forall_mem_cons.mpr ⟨.leaf rfl rfl, List.forall_mem_singleton.mpr (.leaf rfl rfl)⟩
    case reals =>
      refine .map (List.forall_mem_singleton.mpr (.array ?_))
      exact List.forall_mem_cons.mpr
        ⟨.leaf rfl rfl nofun, List.forall_mem_singleton.mpr (.leaf rfl rfl nofun)⟩
  · refine ⟨_, rfl, ?distinct, ?nests, ?finite,
      ((ofJson_toJson ?distinct ?nests).2 ?finite _).mpr ?same⟩
    case distinct => exact .array (List.forall_mem_singleton.mpr (.leaf rfl rfl))
    case nests => exact .array (List.forall_mem_singleton.mpr (.leaf rfl rfl))
    case finite =>
      refine .array (List.forall_mem_singleton.mpr (.leaf rfl rfl fun x hx => ?_))
      obtain rfl := Tree.real.inj hx
      decide +kernel
    case same =>
      have htext : (.ofRatio false 3 2 : Double).text .document = ['1', '.', '5'] := by
        decide +kernel
      have hnumber : SpellsNumber ⟨false, ['1'], some ['5'], none⟩
          ((.ofRatio false 3 2 : Double).text .document) := by
        rw [htext]
        exact PartialNumber.spellsNumber_parts (wholeDigits_single rfl) (.some (digits_single rfl))
          .none
      exact .array (.cons (.real ⟨_, hnumber, by decide +kernel⟩) .nil)

end Json

end SolverConfig
