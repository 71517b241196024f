import SolverConfig.Target
import SolverConfig.Tree.Basic

/-!
# Converting trees

A tree converts to a target exactly or not at all, save that reals are rounded. A failed
conversion is a mismatch of a bare value. In the other direction, values of flags, texts, reals,
narrow integers and lists of these are trees.
-/

namespace SolverConfig

namespace Numeric

/-- Integers that fit convert to integer types, and numbers to reals. A finite number that would
become infinite is refused. -/
def convert : (n : Numeric) → Tree → Except ConfigError n.Carrier
  | .integer t, tree =>
    match tree.asInteger? with
    | some n => if t.contains n.toInt then .ok n.toInt else .error (tree.mismatch .value t.name)
    | none => .error (tree.mismatch .value t.name)
  | .real p, tree =>
    match tree.asReal? with
    | some x =>
      let y := p.ofDouble x
      if x.isFinite && !y.isFinite then
        .error (tree.mismatch .value (p.name ++ " within range"))
      else .ok y
    | none => .error (tree.mismatch .value p.name)

def toTree? : (n : Numeric) → n.Carrier → Option Tree
  | .integer t, n =>
    if t.isNarrow && t.contains n then some (.integer (Int64.ofInt n)) else none
  | .real p, x => some (.real (p.toDouble x))

end Numeric

def choices (α : Type) [Vocabulary α] : String :=
  "one of " ++ Outline.commaSeparated ((Vocabulary.all : List α).map Vocabulary.name)

def convertChoice (α : Type) [Vocabulary α] (tree : Tree) : Except ConfigError α :=
  match tree.asText?.bind (Vocabulary.find? α) with
  | some a => .ok a
  | none => .error (tree.mismatch .value (choices α))

namespace Target

def complexExpected : String := "a number or a [re, im] pair"

/-- The value of a tree at a target. A leaf stands for a complex number without imaginary part. -/
def convert : (t : Target) → Tree → Except ConfigError t.Carrier
  | .number n, tree => n.convert tree
  | .complex n, tree =>
    match tree with
    | .array [re, im] =>
      match n.convert re with
      | .error e => .error e
      | .ok re =>
        match n.convert im with
        | .error e => .error e
        | .ok im => .ok ⟨re, im⟩
    | .array _ | .map _ => .error (tree.mismatch .value complexExpected)
    | leaf =>
      match n.convert leaf with
      | .error e => .error e
      | .ok re => .ok ⟨re, n.zero⟩
  | .flag, tree =>
    match tree.asBool? with
    | some b => .ok b
    | none => .error (tree.mismatch .value "bool")
  | .text, tree =>
    match tree.asText? with
    | some s => .ok s
    | none => .error (tree.mismatch .value "string")
  | .duration, tree =>
    match tree.asInteger? with
    | some n =>
      if 0 ≤ n.toInt then .ok n.toInt.toNat
      else .error (tree.mismatch .value "non-negative nanoseconds")
    | none => .error (tree.mismatch .value "non-negative nanoseconds")
  | .guess, tree => convertChoice InitialGuess tree
  | .algorithm, tree => convertChoice TriangularAlgorithm tree
  | .baseline, tree => convertChoice Baseline tree
  | .list t, tree =>
    match tree.asArray? with
    | some items => items.mapM t.convert
    | none => .error (tree.mismatch .value "array")

def toTree? : (t : Target) → t.Carrier → Option Tree
  | .number n, x => n.toTree? x
  | .flag, b => some (.boolean b)
  | .text, s => some (.text s)
  | .list t, xs => (xs.mapM t.toTree?).map .array
  | _, _ => none

end Target

end SolverConfig
