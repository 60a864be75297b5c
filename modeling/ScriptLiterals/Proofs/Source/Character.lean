import Mathlib.Tactic
import ScriptLiterals.Source.Character
import ScriptLiterals.Text.Lines

/-!
The classes of characters by their codes, and which of them exclude each other.
-/

namespace ScriptLiterals

theorem isDigit_iff (c : Char) : isDigit c = true ↔ 48 ≤ c.toNat ∧ c.toNat ≤ 57 := by
  simp only [isDigit, Bool.and_eq_true, decide_eq_true_eq]
  exact Iff.rfl

theorem startsIdentifier_iff (c : Char) :
    startsIdentifier c = true ↔
      c = '_' ∨ (97 ≤ c.toNat ∧ c.toNat ≤ 122) ∨ (65 ≤ c.toNat ∧ c.toNat ≤ 90) := by
  simp only [startsIdentifier, Bool.or_eq_true, Bool.and_eq_true, decide_eq_true_eq, or_assoc]
  exact Iff.rfl

theorem isWordChar_iff (c : Char) :
    isWordChar c = true ↔ isDigit c = true ∨ startsIdentifier c = true := by
  simp [isWordChar]

theorem not_startsIdentifier_of_isDigit {c : Char} (digit : isDigit c = true) :
    startsIdentifier c = false := by
  rw [isDigit_iff] at digit
  rw [← Bool.not_eq_true, startsIdentifier_iff]
  rintro (rfl | letter)
  · exact absurd digit (by decide)
  · omega

theorem isWordChar_of_isDigit {c : Char} (digit : isDigit c = true) : isWordChar c = true :=
  (isWordChar_iff c).mpr (.inl digit)

theorem isWordChar_of_startsIdentifier {c : Char} (starts : startsIdentifier c = true) :
    isWordChar c = true :=
  (isWordChar_iff c).mpr (.inr starts)

theorem not_isWordChar_of_isQuote {c : Char} (quote : isQuote c = true) : isWordChar c = false := by
  simp only [isQuote, Bool.or_eq_true, decide_eq_true_eq] at quote
  rcases quote with (rfl | rfl) | rfl <;> decide

theorem not_isQuote_of_isWordChar {c : Char} (wordChar : isWordChar c = true) :
    ¬ isQuote c = true := by
  intro quote
  rw [not_isWordChar_of_isQuote quote] at wordChar
  contradiction

theorem ne_slash_of_isQuote {c : Char} (quote : isQuote c = true) : c ≠ '/' := by
  rintro rfl
  exact absurd quote (by decide)

theorem ne_slash_of_isWordChar {c : Char} (wordChar : isWordChar c = true) : c ≠ '/' := by
  rintro rfl
  exact absurd wordChar (by decide)

theorem not_isDecimalChar_of_isExponentMark {c : Char} (mark : isExponentMark c = true) :
    isDecimalChar c = false := by
  simp only [isExponentMark, Bool.or_eq_true, decide_eq_true_eq] at mark
  rcases mark with rfl | rfl <;> decide

theorem ne_separator_of_isDigit {c : Char} (digit : isDigit c = true) : c ≠ '_' := by
  rintro rfl
  exact absurd digit (by decide)

def isNumberChar (c : Char) : Bool := isWordChar c || c = '.' || isSign c

theorem isNumberChar_of_isWordChar {c : Char} (wordChar : isWordChar c = true) :
    isNumberChar c = true := by
  simp [isNumberChar, wordChar]

theorem isNumberChar_of_isSign {c : Char} (sign : isSign c = true) : isNumberChar c = true := by
  simp [isNumberChar, sign]

theorem newline_not_mem_of_isNumberChar {text : Text}
    (characters : ∀ c ∈ text, isNumberChar c = true) : '\n' ∉ text := by
  intro feed
  exact absurd (characters _ feed) (by decide)

theorem isLineEnd_of_isNumberChar {c : Char} (character : isNumberChar c = true) :
    Text.isLineEnd c = false := by
  by_contra ending
  simp only [Bool.not_eq_false, Text.isLineEnd, Bool.or_eq_true, decide_eq_true_eq, or_assoc]
    at ending
  rcases ending with rfl | rfl | rfl | rfl | rfl | rfl | rfl | rfl | rfl | rfl <;>
    exact absurd character (by decide)

theorem toNat_of_isNumberChar {c : Char} (character : isNumberChar c = true) :
    43 ≤ c.toNat ∧ c.toNat ≤ 122 := by
  simp only [isNumberChar, isSign, Bool.or_eq_true, decide_eq_true_eq] at character
  rcases character with (word | rfl) | rfl | rfl
  · rcases (isWordChar_iff c).mp word with digit | starts
    · rw [isDigit_iff] at digit
      omega
    · rcases (startsIdentifier_iff c).mp starts with rfl | letter
      · decide
      · omega
  · decide
  · decide
  · decide

theorem isDigit_of_mem_ofNat {n : Nat} {c : Char} (member : c ∈ Text.ofNat n) : isDigit c = true := by
  have digit := Nat.isDigit_of_mem_toDigits (by decide) (by decide) member
  simp only [Char.isDigit, Bool.and_eq_true, decide_eq_true_eq] at digit
  exact (isDigit_iff c).mpr digit

theorem isNumberChar_of_mem_ofInt {n : Int} {c : Char} (member : c ∈ Text.ofInt n) :
    isNumberChar c = true := by
  cases n with
  | ofNat n => exact isNumberChar_of_isWordChar (isWordChar_of_isDigit (isDigit_of_mem_ofNat member))
  | negSucc n =>
    rcases List.mem_cons.mp member with rfl | member
    · rfl
    · exact isNumberChar_of_isWordChar (isWordChar_of_isDigit (isDigit_of_mem_ofNat member))

theorem newline_not_mem_ofNat (n : Nat) : '\n' ∉ Text.ofNat n :=
  newline_not_mem_of_isNumberChar fun _ member =>
    isNumberChar_of_isWordChar (isWordChar_of_isDigit (isDigit_of_mem_ofNat member))

theorem newline_not_mem_ofInt (n : Int) : '\n' ∉ Text.ofInt n :=
  newline_not_mem_of_isNumberChar fun _ member => isNumberChar_of_mem_ofInt member

end ScriptLiterals
