import SolverConfig.Proofs.Json.Routes

/-!
# Integers beyond 64 signed bits

An integer that 64 signed bits do not hold is refused if 64 unsigned bits hold it. Any other is read
as a real, on either way to a tree, as if it had been written as one; it is refused only if it
overflows.
-/

namespace SolverConfig

namespace NumberLiteral

/-- An integer by its form that 64 signed bits do not hold. -/
def BeyondSigned (l : NumberLiteral) : Prop :=
  l.isWhole = true ∧ (l.integer < Int64.minValue.toInt ∨ Int64.maxValue.toInt < l.integer)

def OnlyUnsigned (l : NumberLiteral) : Prop :=
  l.isWhole = true ∧ Int64.maxValue.toInt < l.integer ∧ l.integer < UInt64.size

theorem exists_readsAs {l : NumberLiteral} : (∃ t, l.ReadsAs t) ↔
    (∃ n, Json.Number.ofLiteral? l = some n) ∧ ¬l.OnlyUnsigned := by
  have hmin : Int64.minValue.toInt < 0 := by decide
  have hmax : 0 < Int64.maxValue.toInt := by decide
  simp only [← Json.Number.toTree_ok]
  rcases Json.Number.ofLiteral?_cases l with ⟨hwhole, -, hfits, n, hvalue, hn⟩ |
    ⟨-, -, hneg, n, -, hn⟩ | ⟨hbeyond, hx⟩
  · have hread : (∃ t, (Json.Number.unsigned n).toTree = .ok t) ↔ ¬l.OnlyUnsigned := by
      rw [hvalue] at hfits
      simp only [Json.Number.toTree_unsigned, exists_and_left, exists_eq, and_true, OnlyUnsigned,
        hwhole, hvalue, hfits, true_and, Int.not_lt]
    simpa [hn] using hread
  · have hread : ¬l.OnlyUnsigned := by
      rintro ⟨-, hlt, -⟩
      omega
    exact iff_of_true ⟨_, _, hn, rfl⟩ ⟨⟨_, hn⟩, hread⟩
  · have hread : ¬l.OnlyUnsigned := by
      rintro ⟨hwhole, hlt, hsize⟩
      rcases hbeyond hwhole with h | h | ⟨-, h⟩ <;> omega
    rw [hx, and_iff_left hread]
    constructor
    · rintro ⟨_, n, hn, -⟩
      exact ⟨n, hn⟩
    · rintro ⟨n, hn⟩
      obtain ⟨x, hx, rfl⟩ := Option.map_eq_some_iff.mp hn
      exact ⟨_, _, hn, rfl⟩

theorem ReadsAs.of_beyondSigned {l : NumberLiteral} {t : Tree} (h : l.ReadsAs t)
    (hl : l.BeyondSigned) : ∃ x, l.scaled? = some x ∧ t = .real x := by
  cases h with
  | integer whole lower upper =>
    rcases hl.2 with hl | hl <;> omega
  | real _ scaled => exact ⟨_, scaled, rfl⟩

end NumberLiteral

namespace Json

theorem Document.literals_and {P Q : NumberLiteral → Prop} {D : Document} :
    (D.Literals fun l => P l ∧ Q l) ↔ D.Literals P ∧ D.Literals Q := by
  simp only [Document.Literals, imp_and, forall_and]

/-- A text is refused for an integer beyond 64 signed bits if 64 unsigned bits hold it, or if it is
too large for any number. Otherwise a real stands in its place. -/
theorem integers_beyond_signed {text : String} {D : Document} (h : Spells D text.toList) :
    ((∃ t, Tree.ofJson text = .ok t) ↔ D.NestsWithin maxDepth ∧ D.Distinct ∧
        (D.Literals fun l => ∃ n, Number.ofLiteral? l = some n) ∧
          D.Literals fun l => ¬l.OnlyUnsigned) ∧
      ((∃ v t, Value.read text = .ok v ∧ v.toTree = .ok t) ↔ D.NestsWithin maxDepth ∧
        (D.Literals fun l => ∃ n, Number.ofLiteral? l = some n) ∧
          D.merge.Literals fun l => ¬l.OnlyUnsigned) ∧
      (∀ t, Tree.ofJson text = .ok t → ∀ path l, D.at? path = some (.number l) →
        l.BeyondSigned → ∃ x, l.scaled? = some x ∧ t.at? path = some (.real x)) ∧
      ∀ v t, Value.read text = .ok v → v.toTree = .ok t → ∀ path l,
        D.merge.at? path = some (.number l) → l.BeyondSigned →
          ∃ x, l.scaled? = some x ∧ t.at? path = some (.real x) := by
  refine ⟨?_, ?_, ?_, ?_⟩
  · simp only [ofJson_ok h, exists_and_left, Document.exists_readsAs,
      NumberLiteral.exists_readsAs, Document.literals_and, and_assoc]
  · rw [exists_comm]
    simp only [read_toTree_ok h, exists_and_left, Document.exists_readsAs,
      NumberLiteral.exists_readsAs, Document.literals_and, and_assoc]
    refine and_congr_right fun _ => and_congr_right fun hnumbers => ?_
    exact and_iff_right hnumbers.merge
  · intro t ht path l hl hbeyond
    obtain ⟨u, hu, hread⟩ := ((ofJson_ok h).mp ht).2.at? hl
    obtain ⟨x, hx, rfl⟩ := (Document.readsAs_number.mp hread).of_beyondSigned hbeyond
    exact ⟨x, hx, hu⟩
  · intro v t hv ht path l hl hbeyond
    obtain ⟨u, hu, hread⟩ := ((read_toTree_ok h).mp ⟨v, hv, ht⟩).2.at? hl
    obtain ⟨x, hx, rfl⟩ := (Document.readsAs_number.mp hread).of_beyondSigned hbeyond
    exact ⟨x, hx, hu⟩

theorem Spells.whole {ds : List Char} (h : WholeDigits ds) :
    Spells (.number ⟨false, ds, none, none⟩) ds := by
  have hnumber : SpellsNumber ⟨false, ds, none, none⟩ ([] ++ ds ++ [] ++ []) :=
    .parts h .none .none
  have hspells : Spells (.number ⟨false, ds, none, none⟩) ([] ++ ([] ++ ds ++ [] ++ []) ++ []) :=
    .leaf (.number hnumber) nofun nofun
  simpa using hspells

theorem integers_beyond_signed_first :
    (∃ D, Spells D "9223372036854775808".toList) ∧
      (¬∃ t, Tree.ofJson "9223372036854775808" = .ok t) ∧
      ¬∃ v t, Value.read "9223372036854775808" = .ok v ∧ v.toTree = .ok t := by
  have hspells : Spells (.number ⟨false, "9223372036854775808".toList, none, none⟩)
      "9223372036854775808".toList := .whole ⟨⟨by decide, List.all_eq_true.mp rfl⟩, by decide⟩
  have hall := integers_beyond_signed hspells
  refine ⟨⟨_, hspells⟩, fun h => ?_, fun h => ?_⟩
  · exact (hall.1.mp h).2.2.2 [] _ rfl ⟨rfl, by decide, by decide⟩
  · exact (hall.2.1.mp h).2.2 [] _ rfl ⟨rfl, by decide, by decide⟩

theorem integer_beyond_unsigned_read :
    ∃ l, Spells (.number l) "18446744073709551616".toList ∧ l.BeyondSigned ∧
      ∃ x, Tree.ofJson "18446744073709551616" = .ok (.real x) ∧
        ∃ v, Value.read "18446744073709551616" = .ok v ∧ v.toTree = .ok (.real x) := by
  have hspells : Spells (.number ⟨false, "18446744073709551616".toList, none, none⟩)
      "18446744073709551616".toList := .whole ⟨⟨by decide, List.all_eq_true.mp rfl⟩, by decide⟩
  have hreads : NumberLiteral.ReadsAs ⟨false, "18446744073709551616".toList, none, none⟩
      (.real (.ofNat (Nat.pow 2 64))) := .real (fun _ => by decide) (by decide +kernel)
  refine ⟨_, hspells, ⟨rfl, by decide⟩, .ofNat (Nat.pow 2 64), ?_, ?_⟩
  · exact (ofJson_ok hspells).mpr ⟨⟨.single rfl, .single rfl⟩, .number hreads⟩
  · refine (read_toTree_ok hspells).mpr ⟨⟨.single rfl, ?_⟩, .number hreads⟩
    obtain ⟨n, hn, -⟩ := Number.toTree_ok.mpr hreads
    exact Document.literals_number.mpr ⟨n, hn⟩

end Json

end SolverConfig
