import SolverConfig.Text.Extending
import SolverConfig.Text.Ignorable
import SolverConfig.Text.Unprintable

/-!
# Quoted text

How texts stand in structural output and in error messages: between quotes, with every character
that would not show as itself escaped.
-/

namespace SolverConfig

def hexDigits (n : Nat) : List Char := Nat.toDigits 16 n

def isConcealed (c : Char) : Bool :=
  if c.toNat < 0x7f then c.toNat < 0x20
  else
    extendingRanges.contains c || ignorableRanges.contains c || unprintableRanges.contains c

def quoteChar (c : Char) : List Char :=
  match c with
  | '"' => ['\\', '"']
  | '\\' => ['\\', '\\']
  | '\n' => ['\\', 'n']
  | '\r' => ['\\', 'r']
  | '\t' => ['\\', 't']
  | '\x00' => ['\\', '0']
  | c => if isConcealed c then '\\' :: 'u' :: '\x7b' :: hexDigits c.toNat ++ ['\x7d'] else [c]

def quoteChars (s : List Char) : List Char := '"' :: s.flatMap quoteChar ++ ['"']

def quoted (s : String) : String := String.ofList (quoteChars s.toList)

end SolverConfig
