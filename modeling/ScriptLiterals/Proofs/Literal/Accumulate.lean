import Mathlib.Data.Rat.Floor
import Mathlib.Tactic
import ScriptLiterals.Literal.Accumulate

/-!
The bounded step as one comparison: testing the product and then the sum is the same as testing the
result. Values and limits may have any sign: the quotient is rounded down, so that the first test
refuses just the products beyond the limit.

Main statements: `lt_fdiv_iff` for the first test, `appendDigit?_eq`, and `appendDigit_exact` for the
step that takes any base.
-/

namespace ScriptLiterals

theorem lt_fdiv_iff {value base limit : Int} (positive : 0 < base) :
    limit.fdiv base < value ↔ limit < value * base := by
  rw [Int.fdiv_eq_ediv_of_nonneg _ positive.le]
  exact Int.ediv_lt_iff_lt_mul positive

theorem appendDigit?_eq {value base digit limit : Int} (positive : 0 < base) (nonneg : 0 ≤ digit) :
    appendDigit? value base digit limit =
      if value * base + digit ≤ limit then some (value * base + digit) else none := by
  unfold appendDigit?
  by_cases fits : value * base + digit ≤ limit
  · have product : ¬ value > limit.fdiv base := by
      rw [gt_iff_lt, lt_fdiv_iff positive]
      omega
    have sum : ¬ value * base > limit - digit := by omega
    rw [if_neg product, if_neg sum, if_pos fits]
  · have sum : value * base > limit - digit := by omega
    rw [if_pos sum, if_neg fits, ite_self]

theorem fdiv_eq_floor (limit : Int) {base : Int} (positive : 0 < base) :
    limit.fdiv base = ⌊(limit / base : ℚ)⌋ := by
  have positive' : (0 : ℚ) < base := Int.cast_pos.mpr positive
  -- Both sides are integers, so it is enough that the same integers are greater.
  apply eq_of_forall_gt_iff
  intro value
  calc
    limit.fdiv base < value ↔ limit < value * base := lt_fdiv_iff positive
    _ ↔ (limit : ℚ) < value * base := by norm_cast
    _ ↔ (limit / base : ℚ) < value := (div_lt_iff₀ positive').symm
    _ ↔ ⌊(limit / base : ℚ)⌋ < value := Int.floor_lt.symm

/-- For numbers of any sign the step gives the result where the limit allows it and refuses it where
the limit does not. -/
theorem appendDigit_exact (value limit : Int) {base digit : Int} (positive : 1 ≤ base)
    (nonneg : 0 ≤ digit) :
    limit.fdiv base = ⌊(limit / base : ℚ)⌋ ∧
      appendDigit value base digit limit =
        .ok (if value * base + digit ≤ limit then some (value * base + digit) else none) := by
  have positive' : 0 < base := by omega
  constructor
  · exact fdiv_eq_floor limit positive'
  · rw [appendDigit, if_neg positive'.ne', appendDigit?_eq positive' nonneg]

theorem appendDigit_exact_below_zero :
    ((1 : Int) ≤ 2 ∧ (0 : Int) ≤ 1) ∧
      (Int.fdiv (-7) 2 = -4 ∧ Int.tdiv (-7) 2 = -3) ∧
      (Int.fdiv (-7) 2 = ⌊((-7 : Int) / (2 : Int) : ℚ)⌋ ∧
        appendDigit (-4) 2 1 (-7) = .ok (some (-7))) ∧
      (Int.fdiv (-7) 2 = ⌊((-7 : Int) / (2 : Int) : ℚ)⌋ ∧
        appendDigit (-3) 2 1 (-7) = .ok none) := by
  have base : (1 : Int) ≤ 2 := by decide
  have digit : (0 : Int) ≤ 1 := by decide
  exact ⟨⟨base, digit⟩, ⟨by decide, by decide⟩, appendDigit_exact (-4) (-7) base digit,
    appendDigit_exact (-3) (-7) base digit⟩

end ScriptLiterals
