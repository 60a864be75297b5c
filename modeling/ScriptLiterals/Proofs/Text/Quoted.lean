import Mathlib.Tactic
import ScriptLiterals.Text.Quoted

/-!
A quoted text stands on one line: its line feeds are escaped.

Main statement: `newline_not_mem_quoted`.
-/

namespace ScriptLiterals.Text

theorem newline_not_mem_hexDigits (count n : Nat) : '\n' ∉ hexDigits count n := by
  induction count generalizing n with
  | zero => simp [hexDigits]
  | succ count ih => exact List.not_mem_append (ih _) (by simp)

theorem newline_not_mem_escapedByCode (c : Char) : '\n' ∉ escapedByCode c := by
  unfold escapedByCode
  split_ifs <;> simp [newline_not_mem_hexDigits]

theorem newline_not_mem_escaped {quote : Char} (visible : quote ≠ '\n') (c : Char) :
    '\n' ∉ escaped quote c := by
  unfold escaped
  by_cases feed : c = '\n'
  · simp [feed, visible.symm]
  · split_ifs <;> simp [Ne.symm feed, newline_not_mem_escapedByCode]

theorem newline_not_mem_quoted (text : Text) : '\n' ∉ quoted text := by
  have visible : quoteFor text ≠ '\n' := by
    unfold quoteFor
    split <;> decide
  simp [quoted, visible.symm, newline_not_mem_escaped visible]

theorem newline_not_mem_joined {separator : Text} {texts : List Text} (between : '\n' ∉ separator)
    (oneLine : ∀ text ∈ texts, '\n' ∉ text) : '\n' ∉ joined separator texts := by
  induction texts with
  | nil => simp [joined]
  | cons text texts ih =>
    obtain ⟨first, others⟩ := List.forall_mem_cons.mp oneLine
    cases texts with
    | nil => simpa [joined] using first
    | cons next texts =>
      have more := ih others
      simp only [joined, List.intercalate_cons_cons] at more ⊢
      exact List.not_mem_append (List.not_mem_append first between) more

theorem newline_not_mem_quotedGroup (texts : List Text) : '\n' ∉ quotedGroup texts := by
  have group : '\n' ∉ joined [',', ' '] (texts.map quoted) := by
    apply newline_not_mem_joined (by decide)
    intro text member
    obtain ⟨text, -, rfl⟩ := List.mem_map.mp member
    exact newline_not_mem_quoted text
  unfold quotedGroup
  split <;> simp [group]

end ScriptLiterals.Text
