import SolverConfig.Component

/-!
# Names are unambiguous

In a lawful vocabulary every element is listed and no text names two of them, so looking a text up
gives the element that the text names. The vocabularies of a configuration are lawful.
-/

namespace SolverConfig

namespace Vocabulary

variable {α : Type} [Vocabulary α]

def spellings (a : α) : List String := name a :: (alias? a).toList

theorem names_iff {s : String} {a : α} : names s a = true ↔ s ∈ spellings a := by
  simp only [names, spellings, Bool.or_eq_true, beq_iff_eq, List.mem_cons, Option.mem_toList,
    eq_comm (a := s)]

@[simp] theorem names_name (a : α) : names (name a) a = true := by simp [names]

end Vocabulary

open Vocabulary

class LawfulVocabulary (α : Type) [Vocabulary α] : Prop where
  mem_all (a : α) : a ∈ all
  disjoint (a b : α) : ∀ s ∈ spellings a, s ∈ spellings b → a = b

namespace LawfulVocabulary

variable {α : Type} [Vocabulary α] [LawfulVocabulary α] {s : String} {a b : α}

theorem eq_of_names (ha : names s a = true) (hb : names s b = true) : a = b :=
  disjoint a b s (names_iff.mp ha) (names_iff.mp hb)

/-- What is found is what is named. -/
theorem find?_eq_some_iff : find? α s = some a ↔ names s a = true := by
  refine ⟨names_of_find?, fun h => ?_⟩
  have hs : (find? α s).isSome = true := List.find?_isSome.mpr ⟨a, mem_all a, h⟩
  obtain ⟨b, hb⟩ := Option.isSome_iff_exists.mp hs
  rw [hb, eq_of_names (names_of_find? hb) h]

theorem find?_eq_none_iff : find? α s = none ↔ ∀ a : α, names s a = false := by
  rw [Option.eq_none_iff_forall_ne_some]
  simp only [ne_eq, find?_eq_some_iff, Bool.not_eq_true]

end LawfulVocabulary

instance : LawfulVocabulary ValueType where
  mem_all a := by cases a <;> decide
  disjoint a b := by cases a <;> cases b <;> decide

instance : LawfulVocabulary IndexType where
  mem_all a := by cases a <;> decide
  disjoint a b := by cases a <;> cases b <;> decide

instance : LawfulVocabulary Family where
  mem_all f := by cases f <;> decide
  disjoint f g := by cases f <;> cases g <;> decide

theorem Component.mem_all (c : Component) : c ∈ (all : List Component) := by cases c <;> decide

instance : LawfulVocabulary Component where
  mem_all := Component.mem_all
  disjoint a b := by
    have h : ∀ a ∈ (all : List Component), ∀ b ∈ (all : List Component),
        ∀ s ∈ spellings a, s ∈ spellings b → a = b := by decide
    exact h a a.mem_all b b.mem_all

end SolverConfig
