import ScriptLiterals.Literal.Read
import ScriptLiterals.Proofs.Source.Case

/-!
Reading a literal in lower case. Each step does with a small letter what it does with the capital, so
the value is the same, and an error is the same with the literal in lower case.

Main statements: one step (`take_lowered`), a whole run (`takeAll_lowered`), and `readLiteral_lowered`.
-/

namespace ScriptLiterals

open Text (lowered)

def LiteralFault.lowered : LiteralFault → LiteralFault
  | .malformed radix character wording =>
    .malformed radix (character.map Text.lowered) (wording.map Text.lowered)
  | .overflow radix width => .overflow radix width
  | .other message => .other (Text.lowered message)

def LiteralError.lowered (e : LiteralError) : LiteralError :=
  ⟨Text.lowered e.text, e.offset, e.fault.lowered⟩

theorem leadingZeroMessage_lowered (text : Text) :
    leadingZeroMessage (lowered text) = lowered (leadingZeroMessage text) := by
  have opening : lowered "leading zero in decimal literal '".toList =
      "leading zero in decimal literal '".toList := by decide +kernel
  have closing : lowered ['\x27'] = ['\x27'] := by decide +kernel
  unfold leadingZeroMessage
  rw [Text.lowered_append, Text.lowered_append, opening, closing]

namespace LiteralError

theorem noDigits_lowered (text : Text) (radix : Radix) :
    noDigits (Text.lowered text) radix = (noDigits text radix).lowered := by
  simp [noDigits, lowered, LiteralFault.lowered]

theorem leadingZero_lowered (text : Text) (offset : Nat) :
    leadingZero (Text.lowered text) offset = (leadingZero text offset).lowered := by
  rw [leadingZero, leadingZeroMessage_lowered]
  rfl

end LiteralError

namespace Reading

def lowered (reading : Reading) : Reading :=
  { reading with first := reading.first.map (Prod.map id Char.toLower) }

def loweredOutcome (outcome : Except LiteralError Reading) : Except LiteralError Reading :=
  (outcome.map lowered).mapError LiteralError.lowered

variable (text : Text) (radix : Radix) (options : Options) (reading : Reading)

theorem leadingZero?_lowered :
    reading.lowered.leadingZero? radix options = reading.leadingZero? radix options := by
  rcases reading with ⟨value, _ | ⟨offset, c⟩, afterSeparator⟩
  · rfl
  · have zero := toLower_eq_iff (d := '0') (by decide) c
    simp only [leadingZero?, lowered, Option.map_some, Prod.map_apply, id_eq, zero]
    rfl

theorem refusesSeparator_lowered (policy : SeparatorPolicy) (last : Bool) :
    reading.lowered.refusesSeparator policy last = reading.refusesSeparator policy last := by
  simp [refusesSeparator, lowered]

theorem takeDigit_lowered (offset : Nat) (c : Char) (digit : Int) :
    reading.lowered.takeDigit (Text.lowered text) radix options offset c.toLower digit =
      loweredOutcome (reading.takeDigit text radix options offset c digit) := by
  unfold takeDigit
  rw [leadingZero?_lowered]
  cases reading.leadingZero? radix options with
  | some leading =>
    change Except.error _ = Except.error _
    rw [LiteralError.leadingZero_lowered]
  | none =>
    have value : reading.lowered.value = reading.value := rfl
    simp only [value]
    cases appendDigit? reading.value radix.base digit options.width.maximum with
    | none => rfl
    | some value => rcases reading with ⟨value, _ | first, afterSeparator⟩ <;> rfl

theorem take_lowered (offset : Nat) (c : Char) (last : Bool) :
    reading.lowered.take (Text.lowered text) radix options offset c.toLower last =
      loweredOutcome (reading.take text radix options offset c last) := by
  have separator := toLower_eq_iff (d := '_') (by decide) c
  simp only [take, separator, refusesSeparator_lowered, digit?_toLower, takeDigit_lowered]
  split_ifs
  · rfl
  · rfl
  · cases radix.digit? c <;> rfl

theorem takeAll_lowered (offset : Nat) (rest : Text) :
    takeAll (Text.lowered text) radix options reading.lowered offset (Text.lowered rest) =
      loweredOutcome (takeAll text radix options reading offset rest) := by
  induction rest generalizing reading offset with
  | nil => rfl
  | cons c rest ih =>
    have last : (Text.lowered rest).isEmpty = rest.isEmpty := List.isEmpty_map
    rw [Text.lowered_cons, takeAll, last, take_lowered, takeAll]
    cases reading.take text radix options offset c rest.isEmpty with
    | error e => rfl
    | ok next => exact ih next (offset + 1)

end Reading

theorem readLiteral_lowered (text : Text) (options : Options) :
    readLiteral (lowered text) options =
      (readLiteral text options).mapError LiteralError.lowered := by
  have digits : (lowered text).drop (Radix.detect text).2 =
      lowered (text.drop (Radix.detect text).2) := List.map_drop.symm
  have taken := Reading.takeAll_lowered text (Radix.detect text).1 options {} (Radix.detect text).2
    (text.drop (Radix.detect text).2)
  simp only [readLiteral, Radix.detect_lowered, digits]
  change Reading.takeAll (lowered text) _ options {} _ _ = _ at taken
  rw [taken]
  cases Reading.takeAll text (Radix.detect text).1 options {} (Radix.detect text).2
      (text.drop (Radix.detect text).2) with
  | error e => rfl
  | ok reading =>
    rcases reading with ⟨value, _ | first, afterSeparator⟩
    · change Except.error _ = Except.error _
      rw [LiteralError.noDigits_lowered]
    · rfl

end ScriptLiterals
