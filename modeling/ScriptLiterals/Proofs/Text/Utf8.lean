import Mathlib.Tactic
import ScriptLiterals.Text.Utf8

/-!
Every text can be read back from its UTF-8.

Main statement: `ofUtf8_toUtf8`.
-/

namespace ScriptLiterals.Text

variable {b low high : UInt8} {bytes seen rest : List UInt8} {value more n : Nat} {c : Char}

theorem toNat_ofNat (small : n < 256) : (UInt8.ofNat n).toNat = n := by
  simpa using small

theorem continuation_cons (above : low.toNat ≤ n) (below : n ≤ high.toNat) :
    continuation seen value (more + 1) low high (UInt8.ofNat n :: rest) =
      continuation (UInt8.ofNat n :: seen) (value * 64 + n % 64) more 0x80 0xBF rest := by
  have same : (UInt8.ofNat n).toNat = n := toNat_ofNat (lt_of_le_of_lt below high.toNat_lt)
  rw [continuation, if_pos, same]
  simp [UInt8.le_iff_toNat_le, same, above, below]

theorem continuation_sixBits :
    continuation seen value (more + 1) 0x80 0xBF (UInt8.ofNat (n % 64 + 128) :: rest) =
      continuation (UInt8.ofNat (n % 64 + 128) :: seen) (value * 64 + n % 64) more 0x80 0xBF rest := by
  have range : (0x80 : UInt8).toNat ≤ n % 64 + 128 ∧ n % 64 + 128 ≤ (0xBF : UInt8).toNat := by
    simp only [UInt8.reduceToNat]
    omega
  rw [continuation_cons range.1 range.2]
  congr 1
  omega

theorem sequenceShape_ofNat (small : n < 256) :
    sequenceShape (UInt8.ofNat n) =
      if 0xC2 ≤ n ∧ n ≤ 0xDF then some (1, 0x80, 0xBF)
      else if n = 0xE0 then some (2, 0xA0, 0xBF)
      else if n = 0xED then some (2, 0x80, 0x9F)
      else if 0xE1 ≤ n ∧ n ≤ 0xEF then some (2, 0x80, 0xBF)
      else if n = 0xF0 then some (3, 0x90, 0xBF)
      else if 0xF1 ≤ n ∧ n ≤ 0xF3 then some (3, 0x80, 0xBF)
      else if n = 0xF4 then some (3, 0x80, 0x8F)
      else none := by
  simp [sequenceShape, UInt8.le_iff_toNat_le, ← UInt8.toNat_inj, toNat_ofNat small]

theorem sequenceShape_two (above : 0x80 ≤ n) (below : n < 0x800) :
    sequenceShape (UInt8.ofNat (n / 64 % 32 + 0xC0)) = some (1, 0x80, 0xBF) := by
  rw [sequenceShape_ofNat (by omega), if_pos (by omega)]

/-- The range for the second of three bytes has the code in it: it leaves out what has a shorter
sequence, and the surrogates. -/
theorem sequenceShape_three (above : 0x800 ≤ n) (below : n < 0x10000)
    (noSurrogate : n < 0xD800 ∨ 0xDFFF < n) :
    ∃ low high, sequenceShape (UInt8.ofNat (n / 4096 % 16 + 0xE0)) = some (2, low, high) ∧
      low.toNat ≤ n / 64 % 64 + 0x80 ∧ n / 64 % 64 + 0x80 ≤ high.toNat := by
  rw [sequenceShape_ofNat (by omega), if_neg (by omega)]
  split_ifs
  · refine ⟨_, _, rfl, ?_⟩
    simp only [UInt8.reduceToNat]
    omega
  · refine ⟨_, _, rfl, ?_⟩
    simp only [UInt8.reduceToNat]
    omega
  · refine ⟨_, _, rfl, ?_⟩
    simp only [UInt8.reduceToNat]
    omega
  all_goals omega

theorem sequenceShape_four (above : 0x10000 ≤ n) (below : n < 0x110000) :
    ∃ low high, sequenceShape (UInt8.ofNat (n / 262144 % 8 + 0xF0)) = some (3, low, high) ∧
      low.toNat ≤ n / 4096 % 64 + 0x80 ∧ n / 4096 % 64 + 0x80 ≤ high.toNat := by
  rw [sequenceShape_ofNat (by omega), if_neg (by omega), if_neg (by omega), if_neg (by omega),
    if_neg (by omega)]
  split_ifs
  · refine ⟨_, _, rfl, ?_⟩
    simp only [UInt8.reduceToNat]
    omega
  · refine ⟨_, _, rfl, ?_⟩
    simp only [UInt8.reduceToNat]
    omega
  · refine ⟨_, _, rfl, ?_⟩
    simp only [UInt8.reduceToNat]
    omega
  all_goals omega

theorem decodeOne_of_shape (large : 0x80 ≤ n) (small : n < 256)
    (shape : sequenceShape (UInt8.ofNat n) = some (more, low, high)) :
    decodeOne (UInt8.ofNat n) rest =
      (continuation [UInt8.ofNat n] (n % Nat.pow 2 (6 - more)) more low high rest).map
        fun (code, rest) => (Char.ofNat code, rest) := by
  have notAscii : ¬ UInt8.ofNat n < 0x80 := by
    simp [UInt8.lt_iff_toNat_lt, toNat_ofNat small, large]
  simp only [decodeOne, if_neg notAscii, shape, leadPayload, toNat_ofNat small]

theorem decodeOne_one (below : n < 0x80) :
    decodeOne (UInt8.ofNat n) rest = .ok (Char.ofNat n, rest) := by
  have small : (UInt8.ofNat n).toNat = n := toNat_ofNat (by omega)
  have ascii : UInt8.ofNat n < 0x80 := by simp [UInt8.lt_iff_toNat_lt, small, below]
  rw [decodeOne, if_pos ascii, small]

theorem decodeOne_two (above : 0x80 ≤ n) (below : n < 0x800) :
    decodeOne (UInt8.ofNat (n / 64 % 32 + 0xC0)) (UInt8.ofNat (n % 64 + 0x80) :: rest) =
      .ok (Char.ofNat n, rest) := by
  have code : (n / 64 % 32 + 0xC0) % Nat.pow 2 (6 - 1) * 64 + n % 64 = n := by
    change (n / 64 % 32 + 0xC0) % 32 * 64 + n % 64 = n
    omega
  rw [decodeOne_of_shape (by omega) (by omega) (sequenceShape_two above below),
    continuation_sixBits, continuation, code]
  rfl

theorem decodeOne_three (above : 0x800 ≤ n) (below : n < 0x10000)
    (noSurrogate : n < 0xD800 ∨ 0xDFFF < n) :
    decodeOne (UInt8.ofNat (n / 4096 % 16 + 0xE0))
      (UInt8.ofNat (n / 64 % 64 + 0x80) :: UInt8.ofNat (n % 64 + 0x80) :: rest) =
        .ok (Char.ofNat n, rest) := by
  obtain ⟨low, high, shape, inside, inside'⟩ := sequenceShape_three above below noSurrogate
  have code : ((n / 4096 % 16 + 0xE0) % Nat.pow 2 (6 - 2) * 64 + (n / 64 % 64 + 0x80) % 64) * 64 +
      n % 64 = n := by
    change ((n / 4096 % 16 + 0xE0) % 16 * 64 + (n / 64 % 64 + 0x80) % 64) * 64 + n % 64 = n
    omega
  rw [decodeOne_of_shape (by omega) (by omega) shape, continuation_cons inside inside',
    continuation_sixBits, continuation, code]
  rfl

theorem decodeOne_four (above : 0x10000 ≤ n) (below : n < 0x110000) :
    decodeOne (UInt8.ofNat (n / 262144 % 8 + 0xF0))
      (UInt8.ofNat (n / 4096 % 64 + 0x80) :: UInt8.ofNat (n / 64 % 64 + 0x80) ::
        UInt8.ofNat (n % 64 + 0x80) :: rest) = .ok (Char.ofNat n, rest) := by
  obtain ⟨low, high, shape, inside, inside'⟩ := sequenceShape_four above below
  have code : (((n / 262144 % 8 + 0xF0) % Nat.pow 2 (6 - 3) * 64 + (n / 4096 % 64 + 0x80) % 64) *
      64 + n / 64 % 64) * 64 + n % 64 = n := by
    change (((n / 262144 % 8 + 0xF0) % 8 * 64 + (n / 4096 % 64 + 0x80) % 64) * 64 +
      n / 64 % 64) * 64 + n % 64 = n
    omega
  rw [decodeOne_of_shape (by omega) (by omega) shape, continuation_cons inside inside',
    continuation_sixBits, continuation_sixBits, continuation, code]
  rfl

theorem decodeOne_utf8EncodeChar (c : Char) (rest : List UInt8) :
    ∃ first behind, String.utf8EncodeChar c = first :: behind ∧
      decodeOne first (behind ++ rest) = .ok (c, rest) := by
  have valid : c.val.toNat < 0xD800 ∨ 0xDFFF < c.val.toNat ∧ c.val.toNat < 0x110000 := c.valid
  have same : Char.ofNat c.val.toNat = c := c.ofNat_toNat
  simp only [String.utf8EncodeChar]
  split_ifs with one two three
  · exact ⟨_, _, rfl, by rw [List.nil_append, decodeOne_one (by omega), same]⟩
  · exact ⟨_, _, rfl, by simp only [List.cons_append, List.nil_append, same,
      decodeOne_two (show 0x80 ≤ c.val.toNat by omega) (by omega)]⟩
  · exact ⟨_, _, rfl, by simp only [List.cons_append, List.nil_append, same,
      decodeOne_three (show 0x800 ≤ c.val.toNat by omega) (by omega) (by omega)]⟩
  · exact ⟨_, _, rfl, by simp only [List.cons_append, List.nil_append, same,
      decodeOne_four (show 0x10000 ≤ c.val.toNat by omega) (by omega)]⟩

theorem decodeFrom_toUtf8 (start : Nat) (text : Text) : decodeFrom start text.toUtf8 = .ok text := by
  induction text generalizing start with
  | nil => rw [toUtf8, List.flatMap_nil, decodeFrom]
  | cons c text ih =>
    obtain ⟨first, behind, bytes, decoded⟩ := decodeOne_utf8EncodeChar c (toUtf8 text)
    have whole : toUtf8 (c :: text) = first :: (behind ++ toUtf8 text) := by
      rw [toUtf8, List.flatMap_cons, bytes]
      rfl
    rw [whole, decodeFrom]
    -- the encoding of one character is decoded as a whole, and the rest by induction
    split
    · next failed => rw [decoded] at failed; contradiction
    · next found =>
      rw [decoded] at found
      obtain ⟨rfl, rfl⟩ := Prod.mk.inj (Except.ok.inj found)
      rw [ih]
      rfl

theorem ofUtf8_toUtf8 (text : Text) : ofUtf8 text.toUtf8 = .ok text := decodeFrom_toUtf8 0 text

end ScriptLiterals.Text
