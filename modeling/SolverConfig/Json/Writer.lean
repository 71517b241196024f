import SolverConfig.Tree.Basic

/-!
# Writing JSON

Trees are written without blanks. Empty trees and numbers that are not finite are written as null.
-/

namespace SolverConfig

namespace Json

def unitDigits (n : Nat) : List Char :=
  let digits := hexDigits n
  List.replicate (4 - digits.length) '0' ++ digits

def escapeChar (c : Char) : List Char :=
  match c with
  | '"' => ['\\', '"']
  | '\\' => ['\\', '\\']
  | '\x08' => ['\\', 'b']
  | '\x0c' => ['\\', 'f']
  | '\n' => ['\\', 'n']
  | '\r' => ['\\', 'r']
  | '\t' => ['\\', 't']
  | c => if c.toNat < 0x20 then '\\' :: 'u' :: unitDigits c.toNat else [c]

def writeText (s : String) : List Char := '"' :: s.toList.flatMap escapeChar ++ ['"']

def separate : List (List Char) → List Char
  | [] => []
  | [part] => part
  | part :: rest => part ++ ',' :: separate rest

end Json

namespace Tree

mutual

def writeJson : Tree → List Char
  | .empty => "null".toList
  | .boolean b => (if b then "true" else "false").toList
  | .integer n => Decimal.integerDigits n.toInt
  | .real x => if x.isFinite then x.text .document else "null".toList
  | .text s => Json.writeText s
  | .array items => '[' :: Json.separate (writeJsonItems items) ++ [']']
  | .map entries => '\x7b' :: Json.separate (writeJsonEntries entries) ++ ['\x7d']
termination_by structural t => t

def writeJsonItems : List Tree → List (List Char)
  | [] => []
  | t :: rest => t.writeJson :: writeJsonItems rest
termination_by structural ts => ts

def writeJsonEntries : List (String × Tree) → List (List Char)
  | [] => []
  | (key, t) :: rest => (Json.writeText key ++ ':' :: t.writeJson) :: writeJsonEntries rest
termination_by structural es => es

end

def toJson (t : Tree) : String := String.ofList t.writeJson

end Tree

end SolverConfig
