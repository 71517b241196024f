/-!
# Vocabularies

Closed sets of things that a configuration refers to by name. Each has one canonical name and at
most one alias, and a label for structural texts.
-/

namespace SolverConfig

class Vocabulary (α : Type) where
  all : List α
  name : α → String
  alias? : α → Option String := fun _ => none
  label : α → String

namespace Vocabulary

variable {α : Type} [Vocabulary α]

/-- Whether a text names an element, by its canonical name or by its alias. -/
def names (s : String) (a : α) : Bool := name a == s || alias? a == some s

def find? (α : Type) [Vocabulary α] (s : String) : Option α := (all : List α).find? (names s)

theorem names_of_find? {s : String} {a : α} (h : find? α s = some a) : names s a = true :=
  List.find?_some h

end Vocabulary

end SolverConfig
