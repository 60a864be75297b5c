import ScriptLiterals.Text.Basic

/-!
One step of reading a number in a bounded range: a digit is appended without leaving the range on
the way.
-/

namespace ScriptLiterals

/-- `value * base + digit`, if the limit allows. The product is tested before it is formed and the
sum before the digit is added; the quotient is rounded down. -/
def appendDigit? (value base digit limit : Int) : Option Int :=
  if value > limit.fdiv base then none
  else if value * base > limit - digit then none
  else some (value * base + digit)

inductive ArithmeticError
  | divisionByZero
  deriving DecidableEq, Repr

def ArithmeticError.message : ArithmeticError → Text
  | divisionByZero => "integer division or modulo by zero".toList

def appendDigit (value base digit limit : Int) : Except ArithmeticError (Option Int) :=
  if base = 0 then .error .divisionByZero else .ok (appendDigit? value base digit limit)

end ScriptLiterals
