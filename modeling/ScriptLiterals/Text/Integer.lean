import ScriptLiterals.Text.DecimalDigit

/-!
Integers as a field of a command line holds them: blanks around, a sign, and decimal digits of any
script with single separators between them.
-/

namespace ScriptLiterals.Text

def isFieldBlank (c : Char) : Bool :=
  c = ' ' || ('\t' ≤ c && c ≤ '\r') || c = '\u0085' || c = '\u00a0' || c = '\u1680' ||
    ('\u2000' ≤ c && c ≤ '\u200a') || c = '\u2028' || c = '\u2029' || c = '\u202f' ||
    c = '\u205f' || c = '\u3000'

def fieldDigits? : Text → Option (List Nat)
  | [] => none
  | [c] => (decimalDigit? c).map ([·])
  | c :: '_' :: rest => do
    let digit ← decimalDigit? c
    let digits ← fieldDigits? rest
    some (digit :: digits)
  | c :: rest => do
    let digit ← decimalDigit? c
    let digits ← fieldDigits? rest
    some (digit :: digits)

def ofDigits (digits : List Nat) : Nat := digits.foldl (fun value digit => value * 10 + digit) 0

def maxDigits : Nat := 4300

def toInteger? (text : Text) : Option Int :=
  let bare := ((text.dropWhile isFieldBlank).reverse.dropWhile isFieldBlank).reverse
  let unsigned : Text → Option Nat := fun digits =>
    (fieldDigits? digits).bind fun ds => if ds.length ≤ maxDigits then some (ofDigits ds) else none
  match bare with
  | '+' :: digits => (unsigned digits).map Int.ofNat
  | '-' :: digits => (unsigned digits).map fun n => -Int.ofNat n
  | digits => (unsigned digits).map Int.ofNat

end ScriptLiterals.Text
