import ScriptLiterals.Radix

/-!
What is wrong with a literal.
-/

namespace ScriptLiterals

/-- The kinds of literal errors. A malformed literal names the character that is wrong, or none if
it has no digits; `wording` replaces the standard message. -/
inductive LiteralFault
  | malformed (radix : Radix) (character : Option Text) (wording : Option Text)
  | overflow (radix : Radix) (width : Int)
  | other (message : Text)
  deriving DecidableEq, Repr

structure LiteralError where
  text : Text
  offset : Int
  fault : LiteralFault
  deriving DecidableEq, Repr

def malformedMessage (text : Text) (radix : Radix) : Option Text → Text
  | none => radix.name ++ " literal '".toList ++ text ++ "' has no digits".toList
  | some character =>
    if character = ['_'] then
      "misplaced digit separator in ".toList ++ radix.name ++ " literal '".toList ++ text ++
        ['\x27']
    else
      "invalid digit '".toList ++ character ++ "' in ".toList ++ radix.name ++
        " literal '".toList ++ text ++ ['\x27']

def leadingZeroMessage (text : Text) : Text :=
  "leading zero in decimal literal '".toList ++ text ++ ['\x27']

namespace LiteralError

def message (e : LiteralError) : Text :=
  match e.fault with
  | .malformed _ _ (some wording) => wording
  | .malformed radix character none => malformedMessage e.text radix character
  | .overflow _ width =>
    "integer literal '".toList ++ e.text ++ "' does not fit in ".toList ++ Text.ofInt width ++
      " signed bits".toList
  | .other message => message

def noDigits (text : Text) (radix : Radix) : LiteralError :=
  ⟨text, text.length, .malformed radix none none⟩

def badCharacter (text : Text) (offset : Nat) (radix : Radix) (c : Char) : LiteralError :=
  ⟨text, offset, .malformed radix (some [c]) none⟩

def leadingZero (text : Text) (offset : Nat) : LiteralError :=
  ⟨text, offset, .malformed .decimal (some ['0']) (some (leadingZeroMessage text))⟩

def overflow (text : Text) (offset : Nat) (radix : Radix) (width : Int) : LiteralError :=
  ⟨text, offset, .overflow radix width⟩

end LiteralError
end ScriptLiterals
