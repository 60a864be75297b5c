import Mathlib.Data.Nat.Digits.Lemmas
import ScriptLiterals.Proofs.Source.Character

/-!
The decimal text of an integer: how long it is, and reading it back.

Main statements: `length_ofNat` and `integerOfDecimal?_ofInt`.
-/

namespace ScriptLiterals.Text

theorem length_ofNat {n : Nat} (positive : 0 < n) :
    (ofNat n).length = (Nat.digits 10 n).length := by
  have bounds : ∀ count, 0 < count →
      ((ofNat n).length ≤ count ↔ (Nat.digits 10 n).length ≤ count) := by
    intro count some
    rw [ofNat, Nat.length_toDigits_le_iff (by decide) some, Nat.digits_length_le_iff (by decide)]
  have characters : 0 < (ofNat n).length := Nat.length_toDigits_pos
  have digits : 0 < (Nat.digits 10 n).length :=
    List.length_pos_iff.mpr (Nat.digits_ne_nil_iff_ne_zero.mpr positive.ne')
  apply le_antisymm
  · exact (bounds _ digits).mpr le_rfl
  · exact (bounds _ characters).mp le_rfl

def numberOfDecimal? (text : Text) : Option Nat :=
  if !text.isEmpty && text.all isDigit then some (Nat.ofDigitChars 10 text 0) else none

def integerOfDecimal? : Text → Option Int
  | '-' :: digits => (numberOfDecimal? digits).map fun n => -Int.ofNat n
  | digits => (numberOfDecimal? digits).map Int.ofNat

theorem numberOfDecimal?_ofNat (n : Nat) : numberOfDecimal? (ofNat n) = some n := by
  have nonempty : (ofNat n).isEmpty = false := List.isEmpty_eq_false_iff.mpr Nat.toDigits_ne_nil
  have digits : (ofNat n).all isDigit = true := by
    apply List.all_eq_true.mpr
    intro c member
    exact isDigit_of_mem_ofNat member
  have value : Nat.ofDigitChars 10 (ofNat n) 0 = n :=
    Nat.ofDigitChars_toDigits (by decide) (by decide)
  simp [numberOfDecimal?, nonempty, digits, value]

theorem integerOfDecimal?_ofInt (n : Int) : integerOfDecimal? (ofInt n) = some n := by
  cases n with
  | ofNat n =>
    rw [ofInt, integerOfDecimal?.eq_def]
    split
    · next digits same =>
      have sign : '-' ∈ ofNat n := same ▸ List.mem_cons_self
      exact absurd (isDigit_of_mem_ofNat sign) (by decide)
    · rw [numberOfDecimal?_ofNat]
      rfl
  | negSucc n =>
    rw [ofInt, integerOfDecimal?, numberOfDecimal?_ofNat, Option.map_some, Int.negSucc_eq]
    rfl

theorem splitOn_colon_ofInt (m n : Int) :
    (ofInt m ++ ':' :: ofInt n).splitOn ':' = [ofInt m, ofInt n] := by
  have colon : ∀ n, ':' ∉ ofInt n := by
    intro n member
    exact absurd (isNumberChar_of_mem_ofInt member) (by decide)
  rw [List.splitOn_append_cons_self_of_not_mem (colon m), List.splitOn_eq_singleton (colon n)]

end ScriptLiterals.Text
