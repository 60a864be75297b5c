import ScriptLiterals.Literal.Accumulate
import ScriptLiterals.Literal.Error
import ScriptLiterals.Literal.Options

/-!
Reading a literal. The digits are taken from left to right, and the first character at which the
literal stops being one decides the error.
-/

namespace ScriptLiterals

/-- What is known of the digits read so far: their value, the first of them with its offset, and
whether a separator stands directly before the next character. -/
structure Reading where
  value : Int := 0
  first : Option (Nat × Char) := none
  afterSeparator : Bool := false
  deriving DecidableEq, Repr

namespace Reading

def refusesSeparator (reading : Reading) (policy : SeparatorPolicy) (last : Bool) : Bool :=
  policy = .strict && (reading.first.isNone || reading.afterSeparator || last)

def leadingZero? (reading : Reading) (radix : Radix) (options : Options) : Option Nat :=
  match reading.first with
  | some (offset, c) =>
    if !options.leadingZeros && radix = .decimal && reading.value = 0 && c = '0' then some offset
    else none
  | none => none

def takeDigit (text : Text) (radix : Radix) (options : Options) (reading : Reading) (offset : Nat)
    (c : Char) (digit : Int) : Except LiteralError Reading :=
  match reading.leadingZero? radix options with
  | some leading => .error (.leadingZero text leading)
  | none =>
    match appendDigit? reading.value radix.base digit options.width.maximum with
    | none => .error (.overflow text offset radix options.width.bits)
    | some value => .ok ⟨value, reading.first.or (some (offset, c)), false⟩

def take (text : Text) (radix : Radix) (options : Options) (reading : Reading) (offset : Nat)
    (c : Char) (last : Bool) : Except LiteralError Reading :=
  if c = '_' then
    if reading.refusesSeparator options.separators last then
      .error (.badCharacter text offset radix c)
    else .ok { reading with afterSeparator := true }
  else
    match radix.digit? c with
    | none => .error (.badCharacter text offset radix c)
    | some digit => reading.takeDigit text radix options offset c digit

def takeAll (text : Text) (radix : Radix) (options : Options) :
    Reading → Nat → Text → Except LiteralError Reading
  | reading, _, [] => .ok reading
  | reading, offset, c :: rest =>
    match reading.take text radix options offset c rest.isEmpty with
    | .error e => .error e
    | .ok reading => takeAll text radix options reading (offset + 1) rest

end Reading

def readLiteral (text : Text) (options : Options := {}) : Except LiteralError Int :=
  let (radix, start) := Radix.detect text
  match Reading.takeAll text radix options {} start (text.drop start) with
  | .error e => .error e
  | .ok reading =>
    match reading.first with
    | none => .error (.noDigits text radix)
    | some _ => .ok reading.value

end ScriptLiterals
