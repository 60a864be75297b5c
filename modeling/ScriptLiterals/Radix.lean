import ScriptLiterals.Text.Basic

/-!
The radices of integer literals: what marks them in a literal, what they are called, and which
characters are their digits.
-/

namespace ScriptLiterals

inductive Radix
  | binary
  | octal
  | decimal
  | hexadecimal
  deriving DecidableEq, Repr

namespace Radix

def base : Radix → Int
  | binary => 2
  | octal => 8
  | decimal => 10
  | hexadecimal => 16

def ofBase? (base : Int) : Option Radix :=
  if base = 2 then some binary
  else if base = 8 then some octal
  else if base = 10 then some decimal
  else if base = 16 then some hexadecimal
  else none

def mark : Radix → Text
  | binary => ['0', 'b']
  | octal => ['0', 'o']
  | decimal => []
  | hexadecimal => ['0', 'x']

def name : Radix → Text
  | binary => "binary".toList
  | octal => "octal".toList
  | decimal => "decimal".toList
  | hexadecimal => "hexadecimal".toList

def ofMark? (c : Char) : Option Radix :=
  if c = 'x' || c = 'X' then some hexadecimal
  else if c = 'o' || c = 'O' then some octal
  else if c = 'b' || c = 'B' then some binary
  else none

/-- The radix of a literal and the offset at which its digits begin. A mark is recognised before its
zero is taken as a decimal digit. -/
def detect : Text → Radix × Nat
  | '0' :: c :: _ =>
    match ofMark? c with
    | some radix => (radix, 2)
    | none => (decimal, 0)
  | _ => (decimal, 0)

end Radix

def digitValue? (c : Char) : Option Int :=
  if '0' ≤ c && c ≤ '9' then some (c.toNat - '0'.toNat : Nat)
  else if 'a' ≤ c && c ≤ 'f' then some (c.toNat - 'a'.toNat + 10 : Nat)
  else if 'A' ≤ c && c ≤ 'F' then some (c.toNat - 'A'.toNat + 10 : Nat)
  else none

def Radix.digit? (radix : Radix) (c : Char) : Option Int :=
  (digitValue? c).filter (· < radix.base)

structure UnknownBase where
  base : Int
  deriving DecidableEq, Repr

def UnknownBase.message (e : UnknownBase) : Text :=
  Text.ofInt e.base ++ " is not a valid Radix".toList

def Radix.ofBase (base : Int) : Except UnknownBase Radix :=
  match Radix.ofBase? base with
  | some radix => .ok radix
  | none => .error ⟨base⟩

end ScriptLiterals
