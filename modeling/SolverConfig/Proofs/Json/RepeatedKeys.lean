import SolverConfig.Proofs.Alike
import SolverConfig.Proofs.Json.Recognition
import SolverConfig.Proofs.Json.Routes

/-!
# Repeated keys

Whether a map is built from its entries or read from a text, it has no key twice: the first key that
occurs again is refused. Reading is decided object by object, so where only one object of a text
repeats a key, the text is refused for the key for which a map of its entries would be.
-/

namespace SolverConfig

-- ---------------------------------------------------------------------------
-- Entries
-- ---------------------------------------------------------------------------

namespace Tree

variable {entries before rest : Entries} {seen : List String} {t : Tree} {key : String}

theorem ofEntries_go_append (hkeys : (before.map Prod.fst).Nodup)
    (hnew : ∀ entry ∈ before, entry.1 ∉ seen) : ofEntries.go entries seen (before ++ rest) =
      ofEntries.go entries ((before.map Prod.fst).reverse ++ seen) rest := by
  induction before generalizing seen with
  | nil => rfl
  | cons first before ih =>
    obtain ⟨hfirst, hnew⟩ := List.forall_mem_cons.mp hnew
    obtain ⟨hother, hkeys⟩ := List.nodup_cons.mp hkeys
    have hnew' : ∀ entry ∈ before, entry.1 ∉ first.1 :: seen := fun entry hentry hmem =>
      (List.mem_cons.mp hmem).elim
        (fun heq => hother (heq ▸ List.mem_map_of_mem hentry)) (hnew entry hentry)
    rw [List.cons_append, ofEntries.go, if_neg (by simpa using hfirst), ih hkeys hnew']
    simp

theorem ofEntries_of_nodup (h : (entries.map Prod.fst).Nodup) :
    ofEntries entries = .ok (.map entries) := by
  have hall : ofEntries.go entries [] (entries ++ []) = .ok (.map entries) :=
    ofEntries_go_append h fun _ _ => List.not_mem_nil
  rwa [List.append_nil] at hall

theorem ofEntries_of_firstRepeat (h : FirstRepeat (entries.map Prod.fst) key) :
    ofEntries entries = .error (.duplicateName .mapKey key) := by
  obtain ⟨before, t, after, rfl, hkeys, hkey⟩ := firstRepeat_keys.mp h
  rw [ofEntries, ofEntries_go_append hkeys fun _ _ => List.not_mem_nil, ofEntries.go,
    if_pos (by simpa using hkey)]

theorem ofEntries_ok :
    ofEntries entries = .ok t ↔ (entries.map Prod.fst).Nodup ∧ t = .map entries := by
  by_cases h : (entries.map Prod.fst).Nodup
  · simp [ofEntries_of_nodup h, h, @eq_comm _ t]
  · obtain ⟨key, hkey⟩ := exists_firstRepeat h
    rw [ofEntries_of_firstRepeat hkey]
    exact iff_of_false nofun fun ht => h ht.1

theorem ofEntries_error {e : ConfigError} : ofEntries entries = .error e ↔
    ∃ key, FirstRepeat (entries.map Prod.fst) key ∧ e = .duplicateName .mapKey key := by
  constructor
  · intro he
    have hn : ¬(entries.map Prod.fst).Nodup := fun h => by
      rw [ofEntries_of_nodup h] at he
      cases he
    obtain ⟨key, hkey⟩ := exists_firstRepeat hn
    rw [ofEntries_of_firstRepeat hkey] at he
    exact ⟨key, hkey, (Except.error.inj he).symm⟩
  · rintro ⟨key, hkey, rfl⟩
    exact ofEntries_of_firstRepeat hkey

inductive Made : Tree → Prop
  | leaf {t : Tree} (notArray : t.isArray = false) (notMap : t.isMap = false) : Made t
  | array {items : List Tree} (each : ∀ item ∈ items, Made item) : Made (.array items)
  | map {entries : Entries} {t : Tree} (each : ∀ entry ∈ entries, Made entry.2)
      (made : ofEntries entries = .ok t) : Made t

theorem made_iff : t.Made ↔ t.Distinct := by
  constructor <;> intro h
  · induction h with
    | leaf notArray notMap => exact .leaf notArray notMap
    | array _ ih => exact .array ih
    | map _ made ih =>
      obtain ⟨hkeys, rfl⟩ := ofEntries_ok.mp made
      exact .map hkeys ih
  · induction h with
    | leaf notArray notMap => exact .leaf notArray notMap
    | array _ ih => exact .array ih
    | map keys _ ih => exact .map ih (ofEntries_of_nodup keys)

end Tree

namespace Json

-- ---------------------------------------------------------------------------
-- Objects of a document
-- ---------------------------------------------------------------------------

namespace Document

variable {D C : Document} {path : List Nat}

theorem Distinct.at? (h : D.Distinct) (hC : D.at? path = some C) : C.Distinct := by
  induction path generalizing D with
  | nil =>
    obtain rfl := Option.some.inj hC
    exact h
  | cons i path ih =>
    obtain ⟨B, hB, hC⟩ := at?_cons.mp hC
    refine ih ?_ hC
    cases D with
    | array items => exact distinct_array.mp h B (List.mem_of_getElem? hB)
    | object entries =>
      obtain ⟨entry, hentry, rfl⟩ := Option.map_eq_some_iff.mp hB
      exact (distinct_object.mp h).2 entry (List.mem_of_getElem? hentry)
    | _ => cases hB

theorem distinct_iff_at? : D.Distinct ↔
    ∀ path entries, D.at? path = some (.object entries) → (entries.map Prod.fst).Nodup := by
  refine ⟨fun h path entries hobject => (distinct_object.mp (h.at? hobject)).1, fun h => ?_⟩
  induction D using Document.induction with
  | array items ih =>
    refine .array fun item hitem => ih item hitem fun path entries hobject => ?_
    obtain ⟨i, hi⟩ := List.mem_iff_getElem?.mp hitem
    exact h (i :: path) entries (at?_cons.mpr ⟨item, hi, hobject⟩)
  | object entries ih =>
    refine .object (h [] entries rfl) fun entry hentry => ih entry hentry fun path es hobject => ?_
    obtain ⟨i, hi⟩ := List.mem_iff_getElem?.mp hentry
    exact h (i :: path) es
      (at?_cons.mpr ⟨entry.2, Option.map_eq_some_iff.mpr ⟨entry, hi, rfl⟩, hobject⟩)
  | _ => exact .single rfl

/-- Nothing is wrong with the document but that keys may be repeated. -/
structure Readable (D : Document) (depth : Nat) : Prop where
  nests : D.NestsWithin depth
  numbers : D.Literals fun l => ∃ t, l.ReadsAs t

theorem Readable.items {items : List Document} {depth : Nat}
    (h : (Document.array items).Readable depth) :
    ∃ below, depth = below + 1 ∧ ∀ item ∈ items, item.Readable below := by
  obtain ⟨below, rfl, heach⟩ := nestsWithin_array.mp h.nests
  exact ⟨below, rfl, fun item hitem =>
    ⟨heach item hitem, literals_array.mp h.numbers item hitem⟩⟩

theorem Readable.entries {entries : List (String × Document)} {depth : Nat}
    (h : (Document.object entries).Readable depth) :
    ∃ below, depth = below + 1 ∧ ∀ entry ∈ entries, entry.2.Readable below := by
  obtain ⟨below, rfl, heach⟩ := nestsWithin_object.mp h.nests
  exact ⟨below, rfl, fun entry hentry =>
    ⟨heach entry hentry, literals_object.mp h.numbers entry hentry⟩⟩

/-- The object at a place is the only one that repeats a key. -/
def OnlyRepeats (D : Document) (path : List Nat) : Prop :=
  ∀ other entries, D.at? other = some (.object entries) → other ≠ path →
    (entries.map Prod.fst).Nodup

section
variable {i : Nat}

theorem OnlyRepeats.child (h : D.OnlyRepeats (i :: path)) (hC : D.child? i = some C) :
    C.OnlyRepeats path := fun other entries hobject hne =>
  h (i :: other) entries (at?_cons.mpr ⟨C, hC, hobject⟩) fun heq => hne (List.cons.inj heq).2

theorem OnlyRepeats.exists_build {depth : Nat} (h : D.OnlyRepeats path) (hC : D.child? i = some C)
    (hne : path.head? ≠ some i) (hreadable : C.Readable depth) :
    ∃ t, treeBuilder.build C depth = .ok t := by
  have hdistinct : C.Distinct := distinct_iff_at?.mpr fun other entries hobject =>
    h (i :: other) entries (at?_cons.mpr ⟨C, hC, hobject⟩) fun heq => hne (heq ▸ rfl)
  obtain ⟨t, ht⟩ := exists_readsAs.mpr hreadable.numbers
  exact ⟨t, treeBuilder_build_ok.mpr ⟨⟨hreadable.nests, hdistinct⟩, ht⟩⟩

end

theorem ReadsAs.distinct_iff {t : Tree} (h : D.ReadsAs t) : D.Distinct ↔ t.Distinct := by
  induction D using Document.induction generalizing t with
  | array items ih =>
    cases h with | array each =>
    rw [distinct_array, Tree.distinct_array]
    exact (forall_mem_iff_of_forall₂ each fun item hitem _ hread => (ih item hitem hread).symm).symm
  | object entries ih =>
    cases h with | object each =>
    rw [distinct_object, Tree.distinct_map, Keyed.keys_eq each]
    refine and_congr_right fun _ => (forall_mem_iff_of_forall₂ each ?_).symm
    exact fun entry hentry _ hread => (ih entry hentry (Keyed.iff.mp hread).2).symm
  | number l =>
    refine iff_of_true (.single rfl) ?_
    rcases readsAs_number.mp h with _ | _ <;> exact .leaf rfl rfl
  | null | boolean | text =>
    cases h
    exact iff_of_true (.single rfl) (.leaf rfl rfl)

end Document

-- ---------------------------------------------------------------------------
-- Building up to an error
-- ---------------------------------------------------------------------------

namespace Builder

variable {α : Type} {b : Builder α} {D : Document} {depth : Nat} {e : Fault}

theorem build_array_error {before after : List Document}
    (hbefore : ∀ item ∈ before, ∃ v, b.build item depth = .ok v) (h : b.build D depth = .error e) :
    b.build (.array (before ++ D :: after)) (depth + 1) = .error e := by
  have hitems : b.buildItems (before ++ D :: after) depth = .error e := by
    induction before with
    | nil =>
      rw [List.nil_append, buildItems, h]
      rfl
    | cons C before ih =>
      obtain ⟨⟨v, hv⟩, hbefore⟩ := List.forall_mem_cons.mp hbefore
      rw [List.cons_append, buildItems, hv, ih hbefore]
      rfl
  rw [build, hitems]
  rfl

theorem buildEntries_append {before rest : List (String × Document)} {built : List (String × α)} :
    b.buildEntries (before ++ rest) depth built =
      (b.buildEntries before depth built).bind (b.buildEntries rest depth) := by
  induction before generalizing built with
  | nil => rfl
  | cons entry before ih =>
    simp only [List.cons_append, buildEntries, ih, except_bind_assoc]

end Builder

section
variable {before after : List (String × Document)} {D : Document} {depth : Nat} {key : String}
  (hkeys : (before.map Prod.fst).Nodup)
  (hbefore : ∀ entry ∈ before, ∃ t, treeBuilder.build entry.2 depth = .ok t)
include hkeys hbefore

theorem treeBuilder_buildEntries_ok : ∃ built,
    treeBuilder.buildEntries before depth [] = .ok built ∧
      built.map Prod.fst = before.map Prod.fst := by
  obtain ⟨built, hbuilt⟩ :=
    Keyed.forall₂_exists (R := fun D t => treeBuilder.build D depth = .ok t) |>.mpr hbefore
  have hsame := Keyed.keys_eq hbuilt
  have hnil : (([] : Tree.Entries).map Prod.fst).Nodup := List.nodup_nil
  rw [hsame] at hkeys
  exact ⟨built, Builder.buildEntries_ok.mpr ⟨built, hbuilt,
    (treeBuilder_foldlM_ok hnil).mpr ⟨hkeys, rfl⟩⟩, hsame.symm⟩

theorem treeBuilder_build_object_error {e : Fault} (h : treeBuilder.build D depth = .error e) :
    treeBuilder.build (.object (before ++ (key, D) :: after)) (depth + 1) = .error e := by
  obtain ⟨built, hbuilt, -⟩ := treeBuilder_buildEntries_ok hkeys hbefore
  rw [Builder.build, Builder.buildEntries_append, hbuilt]
  simp only [Except.bind, Builder.buildEntries, h]
  rfl

theorem treeBuilder_build_object_repeated {t : Tree} (h : treeBuilder.build D depth = .ok t)
    (hkey : key ∈ before.map Prod.fst) :
    treeBuilder.build (.object (before ++ (key, D) :: after)) (depth + 1) =
      .error (.repeatedKey key) := by
  obtain ⟨built, hbuilt, hsame⟩ := treeBuilder_buildEntries_ok hkeys hbefore
  have hrefused : treeBuilder.entry built key t = .error (.repeatedKey key) := by
    refine if_pos (Option.isSome_iff_ne_none.mpr fun hnone => ?_)
    exact lookup_eq_none_iff.mp hnone (hsame ▸ hkey)
  rw [Builder.build, Builder.buildEntries_append, hbuilt]
  simp only [Except.bind, Builder.buildEntries, h, hrefused]
  rfl

end

theorem exists_split {α : Type} {as : List α} {i : Nat} {a : α} (h : as[i]? = some a) :
    ∃ before after, as = before ++ a :: after ∧ ∀ c ∈ before, ∃ j, i ≠ j ∧ as[j]? = some c := by
  obtain ⟨hi, rfl⟩ := List.getElem?_eq_some_iff.mp h
  refine ⟨as.take i, as.drop (i + 1), ?_, fun c hc => ?_⟩
  · rw [List.getElem_cons_drop, List.take_append_drop]
  · obtain ⟨j, hj, rfl⟩ := List.mem_take_iff_getElem.mp hc
    exact ⟨j, by omega, List.getElem?_eq_getElem _⟩

theorem treeBuilder_build_repeated {D : Document} {path : List Nat} {depth : Nat}
    {entries : List (String × Document)} {key : String} (hreadable : D.Readable depth)
    (hobject : D.at? path = some (.object entries))
    (hrepeat : FirstRepeat (entries.map Prod.fst) key) (honly : D.OnlyRepeats path) :
    treeBuilder.build D depth = .error (.repeatedKey key) := by
  -- Whatever is read before the object, in each array and object around it, can be built.
  induction path generalizing D depth with
  | nil =>
    obtain rfl := Option.some.inj hobject
    obtain ⟨below, rfl, heach⟩ := hreadable.entries
    have hbuilds : ∀ entry ∈ entries, ∃ t, treeBuilder.build entry.2 below = .ok t :=
      fun entry hentry => by
        obtain ⟨i, hi⟩ := List.mem_iff_getElem?.mp hentry
        exact honly.exists_build (Option.map_eq_some_iff.mpr ⟨entry, hi, rfl⟩)
          (Option.some_ne_none i).symm (heach entry hentry)
    obtain ⟨before, C, after, rfl, hkeys, hkey⟩ := firstRepeat_keys.mp hrepeat
    obtain ⟨hbefore, hlater⟩ := List.forall_mem_append.mp hbuilds
    obtain ⟨t, ht⟩ := hlater _ List.mem_cons_self
    exact treeBuilder_build_object_repeated hkeys hbefore ht hkey
  | cons i path ih =>
    obtain ⟨B, hB, hinside⟩ := Document.at?_cons.mp hobject
    cases D with
    | array items =>
      obtain ⟨below, rfl, heach⟩ := hreadable.items
      obtain ⟨before, after, rfl, hbefore⟩ := exists_split hB
      obtain ⟨hreads, hlater⟩ := List.forall_mem_append.mp heach
      refine Builder.build_array_error (fun item hitem => ?_)
        (ih (hlater B List.mem_cons_self) hinside (honly.child hB))
      obtain ⟨j, hj, hitemAt⟩ := hbefore item hitem
      exact honly.exists_build hitemAt (hj ∘ Option.some.inj) (hreads item hitem)
    | object es =>
      obtain ⟨below, rfl, heach⟩ := hreadable.entries
      obtain ⟨⟨name, C⟩, hentry, rfl⟩ := Option.map_eq_some_iff.mp hB
      have hkeys : (es.map Prod.fst).Nodup := honly [] es rfl (List.cons_ne_nil i path).symm
      obtain ⟨before, after, rfl, hbefore⟩ := exists_split hentry
      obtain ⟨hreads, hlater⟩ := List.forall_mem_append.mp heach
      rw [List.map_append] at hkeys
      refine treeBuilder_build_object_error hkeys.of_append_left (fun entry hmem => ?_)
        (ih (hlater _ List.mem_cons_self) hinside (honly.child hB))
      obtain ⟨j, hj, hentryAt⟩ := hbefore entry hmem
      exact honly.exists_build (Option.map_eq_some_iff.mpr ⟨entry, hentryAt, rfl⟩)
        (hj ∘ Option.some.inj) (hreads entry hmem)
    | _ => cases hB

-- ---------------------------------------------------------------------------
-- Both ways
-- ---------------------------------------------------------------------------

/-- A map of entries is refused for the first key that occurs again, and a text in which keys may be
repeated but nothing else is wrong, exactly if some object in it repeats one. If only one object
does, it is for the key for which a map with the keys of that object would be refused. So neither
way leads to a tree in which a key is repeated, and entries stand in their order. -/
theorem repeated_keys_refused :
    (∀ entries : Tree.Entries,
      (∀ t, Tree.ofEntries entries = .ok t ↔
        (entries.map Prod.fst).Nodup ∧ t = .map entries) ∧
      ∀ e, Tree.ofEntries entries = .error e ↔
        ∃ key, FirstRepeat (entries.map Prod.fst) key ∧ e = .duplicateName .mapKey key) ∧
    (∀ (text : String) (D : Document), Spells D text.toList → D.Readable maxDepth →
      ((∃ t, Tree.ofJson text = .ok t) ↔ ∀ path entries,
        D.at? path = some (.object entries) → (entries.map Prod.fst).Nodup) ∧
      ∀ path entries, D.at? path = some (.object entries) → ¬(entries.map Prod.fst).Nodup →
        D.OnlyRepeats path → ∃ key, Tree.ofJson text = .error (.repeatedKey key) ∧
          ∀ others : Tree.Entries, others.map Prod.fst = entries.map Prod.fst →
            Tree.ofEntries others = .error (.duplicateName .mapKey key)) ∧
    (∀ t : Tree, t.Made ↔ t.Distinct) ∧
    ∀ (text : String) (t : Tree), Tree.ofJson text = .ok t →
      t.Distinct ∧ ∃ D, Spells D text.toList ∧ D.ReadsAs t := by
  refine ⟨fun entries => ⟨fun t => Tree.ofEntries_ok, fun e => Tree.ofEntries_error⟩,
    fun text D hD hreadable => ⟨?_, fun path entries hobject hrepeats honly => ?_⟩,
    fun t => Tree.made_iff, fun text t ht => ?_⟩
  · obtain ⟨t, hreads⟩ := Document.exists_readsAs.mpr hreadable.numbers
    rw [← Document.distinct_iff_at?]
    constructor
    · rintro ⟨t, ht⟩
      exact ((ofJson_ok hD).mp ht).1.2
    · exact fun hdistinct => ⟨t, (ofJson_ok hD).mpr ⟨⟨hreadable.nests, hdistinct⟩, hreads⟩⟩
  · obtain ⟨key, hkey⟩ := exists_firstRepeat hrepeats
    refine ⟨key, ?_, fun others hkeys => Tree.ofEntries_of_firstRepeat (hkeys ▸ hkey)⟩
    rw [Tree.ofJson, read_spells _ hD]
    exact treeBuilder_build_repeated hreadable hobject hkey honly
  · obtain ⟨D, hD⟩ := spells_of_read ht
    obtain ⟨⟨-, hdistinct⟩, hreads⟩ := (ofJson_ok hD).mp ht
    exact ⟨hreads.distinct_iff.mp hdistinct, D, hD, hreads⟩

theorem repeated_keys_refused_escaped :
    ∃ key, Tree.ofJson "\x7b\"a\":null,\"\\u0061\":null\x7d" = .error (.repeatedKey key) ∧
      Tree.ofEntries [("a", .boolean true), ("a", .empty)] =
        .error (.duplicateName .mapKey key) := by
  have hplain : SpellsText ['a'] ('a' :: []) :=
    .cons (.plain (by decide) (by decide) (by decide)) .nil
  have hunit : SpellsUnit (16 * (16 * (16 * 0 + 0) + 6) + 1) ['0', '0', '6', '1'] :=
    .digits rfl rfl rfl rfl
  have hescaped : SpellsText ['a'] ('\\' :: 'u' :: ['0', '0', '6', '1'] ++ []) :=
    .cons (.unit hunit rfl rfl) .nil
  have hkeys : List.Forall₂ SpellsKey ([("a", Document.null), ("a", .null)].map Prod.fst)
      [[] ++ '"' :: ('a' :: []) ++ '"' :: [],
        [] ++ '"' :: ('\\' :: 'u' :: ['0', '0', '6', '1'] ++ []) ++ '"' :: []] :=
    .cons (.quoted hplain blanks_nil blanks_nil)
      (.cons (.quoted hescaped blanks_nil blanks_nil) .nil)
  have hnull : Spells .null ([] ++ ['n', 'u', 'l', 'l'] ++ []) := .leaf .null blanks_nil blanks_nil
  have hvalues : List.Forall₂ Spells ([("a", Document.null), ("a", .null)].map Prod.snd) _ :=
    .cons hnull (.cons hnull .nil)
  have hspells : Spells (.object [("a", .null), ("a", .null)])
      "\x7b\"a\":null,\"\\u0061\":null\x7d".toList :=
    .object hkeys hvalues blanks_nil blanks_nil blanks_nil
  have honly : (Document.object [("a", .null), ("a", .null)]).OnlyRepeats [] := by
    rintro (_ | ⟨i, other⟩) entries hobject hne
    · exact absurd rfl hne
    · obtain ⟨B, hB, hobject⟩ := Document.at?_cons.mp hobject
      obtain ⟨entry, hentry, rfl⟩ := Option.map_eq_some_iff.mp hB
      have hdistinct : entry.2.Distinct := by
        have hmem := List.mem_of_getElem? hentry
        simp only [List.mem_cons, List.not_mem_nil, or_false, or_self] at hmem
        exact hmem ▸ .single rfl
      exact Document.distinct_iff_at?.mp hdistinct other entries hobject
  have hreadable : (Document.object [("a", .null), ("a", .null)]).Readable maxDepth :=
    ⟨.object (by simpa using .single rfl), Document.literals_object.mpr (by simp)⟩
  obtain ⟨key, hjson, hmap⟩ := (repeated_keys_refused.2.1 _ _ hspells hreadable).2 [] _ rfl
    (by decide) honly
  exact ⟨key, hjson, hmap _ rfl⟩

end Json

end SolverConfig
