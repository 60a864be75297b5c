import ScriptLiterals.Text.Basic

/-!
UTF-8. Decoding stops at the first sequence that is not well formed and reports the longest part of
it that could have begun a character.
-/

namespace ScriptLiterals.Text

inductive Utf8Reason
  | invalidStart
  | invalidContinuation
  | unexpectedEnd
  deriving DecidableEq, Repr

structure Utf8Error where
  start : Nat
  bytes : List UInt8
  reason : Utf8Reason
  deriving DecidableEq, Repr

namespace Utf8Reason

def message : Utf8Reason → Text
  | invalidStart => "invalid start byte".toList
  | invalidContinuation => "invalid continuation byte".toList
  | unexpectedEnd => "unexpected end of data".toList

end Utf8Reason

def byteDigits (b : UInt8) : Text := [Nat.digitChar (b.toNat / 16), Nat.digitChar (b.toNat % 16)]

def Utf8Error.message (e : Utf8Error) : Text :=
  match e.bytes with
  | [b] =>
    "'utf-8' codec can't decode byte 0x".toList ++ byteDigits b ++ " in position ".toList ++
      ofNat e.start ++ ": ".toList ++ e.reason.message
  | bytes =>
    "'utf-8' codec can't decode bytes in position ".toList ++ ofNat e.start ++ "-".toList ++
      ofNat (e.start + bytes.length - 1) ++ ": ".toList ++ e.reason.message

/-- What a first byte promises: the number of bytes behind it and the range of the first of them, or
nothing, if no character begins with it. -/
def sequenceShape (b : UInt8) : Option (Nat × UInt8 × UInt8) :=
  if 0xC2 ≤ b && b ≤ 0xDF then some (1, 0x80, 0xBF)
  else if b = 0xE0 then some (2, 0xA0, 0xBF)
  else if b = 0xED then some (2, 0x80, 0x9F)
  else if 0xE1 ≤ b && b ≤ 0xEF then some (2, 0x80, 0xBF)
  else if b = 0xF0 then some (3, 0x90, 0xBF)
  else if 0xF1 ≤ b && b ≤ 0xF3 then some (3, 0x80, 0xBF)
  else if b = 0xF4 then some (3, 0x80, 0x8F)
  else none

def leadPayload (more : Nat) (b : UInt8) : Nat := b.toNat % Nat.pow 2 (6 - more)

def continuation (seen : List UInt8) (value : Nat) :
    Nat → UInt8 → UInt8 → List UInt8 → Except (List UInt8 × Utf8Reason) (Nat × List UInt8)
  | 0, _, _, rest => .ok (value, rest)
  | _ + 1, _, _, [] => .error (seen.reverse, .unexpectedEnd)
  | more + 1, low, high, b :: rest =>
    if low ≤ b && b ≤ high then
      continuation (b :: seen) (value * 64 + b.toNat % 64) more 0x80 0xBF rest
    else .error (seen.reverse, .invalidContinuation)

theorem continuation_length_le {seen : List UInt8} {value more : Nat} {low high : UInt8}
    {bytes rest : List UInt8} {code : Nat}
    (h : continuation seen value more low high bytes = .ok (code, rest)) :
    rest.length ≤ bytes.length := by
  induction bytes generalizing seen value more low high with
  | nil =>
    cases more with
    | zero => simp only [continuation, Except.ok.injEq, Prod.mk.injEq] at h; simp [← h.2]
    | succ more => simp [continuation] at h
  | cons b bytes ih =>
    cases more with
    | zero => simp only [continuation, Except.ok.injEq, Prod.mk.injEq] at h; simp [← h.2]
    | succ more =>
      rw [continuation] at h
      split at h
      · exact Nat.le_succ_of_le (ih h)
      · exact absurd h (by simp)

def decodeOne (b : UInt8) (rest : List UInt8) :
    Except (List UInt8 × Utf8Reason) (Char × List UInt8) :=
  if b < 0x80 then .ok (Char.ofNat b.toNat, rest)
  else
    match sequenceShape b with
    | none => .error ([b], .invalidStart)
    | some (more, low, high) =>
      (continuation [b] (leadPayload more b) more low high rest).map fun (code, rest) =>
        (Char.ofNat code, rest)

theorem decodeOne_length_le {b : UInt8} {bytes rest : List UInt8} {c : Char}
    (h : decodeOne b bytes = .ok (c, rest)) : rest.length ≤ bytes.length := by
  unfold decodeOne at h
  split at h
  · simp only [Except.ok.injEq, Prod.mk.injEq] at h
    simp [← h.2]
  · split at h
    · simp at h
    · next more low high _ =>
      generalize hk : continuation [b] (leadPayload more b) more low high bytes = k at h
      cases k with
      | error e => simp [Except.map] at h
      | ok p =>
        simp only [Except.map, Except.ok.injEq, Prod.mk.injEq] at h
        exact h.2 ▸ continuation_length_le hk

def decodeFrom (start : Nat) : List UInt8 → Except Utf8Error Text
  | [] => .ok []
  | b :: rest =>
    match h : decodeOne b rest with
    | .error (bytes, reason) => .error ⟨start, bytes, reason⟩
    | .ok (c, after) =>
      (decodeFrom (start + (rest.length + 1 - after.length)) after).map (c :: ·)
termination_by bytes => bytes.length
decreasing_by exact Nat.lt_succ_of_le (decodeOne_length_le h)

def ofUtf8 (bytes : List UInt8) : Except Utf8Error Text := decodeFrom 0 bytes

def toUtf8 (text : Text) : List UInt8 := text.flatMap String.utf8EncodeChar

def utf8Size (text : Text) : Nat := (toUtf8 text).length

end ScriptLiterals.Text
