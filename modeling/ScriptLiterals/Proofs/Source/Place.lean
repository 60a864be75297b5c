import Mathlib.Tactic
import ScriptLiterals.Source.Position

/-!
What the counters of a position mean: they agree with the script up to the offset, and going over a
text keeps them so.

Main statement: `Position.IsAt.after`.
-/

namespace ScriptLiterals

/-- The line that `offset` is in begins at `lineStart`, directly behind the last line feed before. -/
structure IsLineStart (source : Text) (offset lineStart : Nat) : Prop where
  le : lineStart ≤ offset
  behind : lineStart = 0 ∨ ∃ n, lineStart = n + 1 ∧ source[n]? = some '\n'
  last : ∀ n, lineStart ≤ n → n < offset → source[n]? ≠ some '\n'

namespace Position

/-- A position that counts the lines and columns of a script rightly. -/
structure IsAt (p : Position) (source : Text) (offset : Nat) : Prop where
  inside : offset ≤ source.length
  offset_eq : p.offset = offset
  line_eq : p.line = 1 + (source.take offset).count '\n'
  column_eq : ∃ lineStart : Nat, IsLineStart source offset lineStart ∧
    p.column = offset - lineStart + 1

variable {p : Position} {source text rest : Text} {offset : Nat} {c : Char}

theorem isAt_start (source : Text) : start.IsAt source 0 where
  inside := Nat.zero_le _
  offset_eq := rfl
  line_eq := by simp [start]
  column_eq := ⟨0, ⟨Nat.le_refl 0, .inl rfl, by simp⟩, rfl⟩

theorem IsAt.one_le (placed : p.IsAt source offset) : 1 ≤ p.line ∧ 1 ≤ p.column := by
  obtain ⟨lineStart, line, column⟩ := placed.column_eq
  have := line.le
  have := placed.line_eq
  omega

theorem count_take_succ (here : source[offset]? = some c) :
    (source.take (offset + 1)).count '\n' =
      (source.take offset).count '\n' + if c = '\n' then 1 else 0 := by
  rw [List.take_add_one, here, List.count_append]
  by_cases feed : c = '\n' <;> simp [feed]

theorem IsAt.next (placed : p.IsAt source offset) (here : source[offset]? = some c) :
    (p.next c).IsAt source (offset + 1) := by
  obtain ⟨bound, -⟩ := List.getElem?_eq_some_iff.mp here
  obtain ⟨lineStart, line, column⟩ := placed.column_eq
  have count := count_take_succ here
  -- a line feed begins a new line, any other character keeps the start of the old one
  by_cases feed : c = '\n'
  · subst c
    refine ⟨bound, by simp [Position.next, placed.offset_eq], ?_, offset + 1, ?_, ?_⟩
    · simp only [Position.next, if_pos, placed.line_eq, count]
      push_cast
      ring
    · exact ⟨Nat.le_refl _, .inr ⟨offset, rfl, here⟩, by omega⟩
    · simp [Position.next]
  · refine ⟨bound, by simp [Position.next, feed, placed.offset_eq], ?_, lineStart, ?_, ?_⟩
    · simp [Position.next, feed, placed.line_eq, count]
    · refine ⟨Nat.le_succ_of_le line.le, line.behind, ?_⟩
      intro n after before
      by_cases here' : n = offset
      · subst n
        rw [here]
        simpa using feed
      · exact line.last n after (by omega)
    · simp only [Position.next, if_neg feed, column]
      push_cast
      ring

@[simp]
theorem after_nil (p : Position) : p.after [] = p := rfl

theorem after_cons (p : Position) (c : Char) (text : Text) :
    p.after (c :: text) = (p.next c).after text := rfl

theorem after_append (p : Position) (first second : Text) :
    p.after (first ++ second) = (p.after first).after second :=
  List.foldl_append ..

theorem after_along {place : Position → Position} (inside : Position → Prop)
    (keeps : ∀ p c, inside p → inside (p.next c))
    (step : ∀ p c, inside p → (place p).next c = place (p.next c)) (start : inside p) (text : Text) :
    (place p).after text = place (p.after text) := by
  induction text generalizing p with
  | nil => rfl
  | cons c text ih => rw [after_cons, after_cons, step p c start, ih (keeps p c start)]

theorem IsAt.after (placed : p.IsAt source offset) (front : source.drop offset = text ++ rest) :
    (p.after text).IsAt source (offset + text.length) := by
  induction text generalizing p offset with
  | nil => exact placed
  | cons c text ih =>
    have here : source[offset]? = some c := by
      rw [← List.head?_drop, front]
      rfl
    have behind : source.drop (offset + 1) = text ++ rest := by
      rw [← List.tail_drop, front]
      rfl
    have := ih (placed.next here) behind
    rwa [Nat.add_assoc, Nat.add_comm 1] at this

theorem offset_next (p : Position) (c : Char) : (p.next c).offset = p.offset + 1 := by
  unfold Position.next
  split <;> rfl

theorem offset_after (p : Position) (text : Text) : (p.after text).offset = p.offset + text.length := by
  induction text generalizing p with
  | nil => simp
  | cons c text ih =>
    rw [after_cons, ih, offset_next, List.length_cons]
    push_cast
    ring

theorem line_after (p : Position) (text : Text) : (p.after text).line = p.line + text.count '\n' := by
  induction text generalizing p with
  | nil => simp
  | cons c text ih =>
    rw [after_cons, ih, List.count_cons, next]
    by_cases feed : c = '\n' <;> simp [feed]
    ring

theorem after_eq_advance (p : Position) (oneLine : '\n' ∉ text) :
    p.after text = p.advance text.length := by
  induction text generalizing p with
  | nil => simp [advance]
  | cons c text ih =>
    obtain ⟨other, oneLine⟩ := not_or.mp (mt List.mem_cons.mpr oneLine)
    rw [after_cons, ih _ oneLine, Position.next, if_neg (Ne.symm other)]
    simp only [advance, List.length_cons, Position.mk.injEq, true_and]
    push_cast
    constructor <;> ring

end Position
end ScriptLiterals
