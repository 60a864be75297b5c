import ScriptLiterals.Proofs.Source.Region

/-!
The cuts behind comments, strings and runs: each is sound and complete for the region that it cuts.
-/

namespace ScriptLiterals

theorem run_complete {p : Char → Bool} {text rest : Text} (isRun : IsRun p text rest) :
    Lexeme.run p (text ++ rest) = (text, rest) := by
  rw [Lexeme.run, List.takeWhile_append_of_pos isRun.1, List.dropWhile_append_of_pos isRun.1]
  cases rest with
  | nil => simp
  | cons c rest =>
    have ends : p c = false := by simpa using isRun.2 c rfl
    simp [ends]

theorem isRun_run (p : Char → Bool) (source : Text) :
    IsRun p (Lexeme.run p source).1 (Lexeme.run p source).2 := by
  constructor
  · intro c member
    exact List.all_eq_true.mp List.all_takeWhile c member
  · intro c head
    have := List.head?_dropWhile_not p source
    rw [show source.dropWhile p = (Lexeme.run p source).2 from rfl, head] at this
    simpa using this

theorem IsRun.any_head? {p : Char → Bool} {text rest : Text} (isRun : IsRun p text rest) :
    rest.head?.any p = false := by
  rw [← Bool.not_eq_true, Option.any_eq_true]
  rintro ⟨c, head, goesOn⟩
  exact isRun.2 c head goesOn

section Strings

variable {quote : Char} {content rest : Text}

theorem stringBody_closed (enclosed : Enclosed quote content) (bare : quote ≠ '\\') :
    Lexeme.stringBody quote (content ++ quote :: rest) = (content ++ [quote], rest) := by
  induction enclosed with
  | nil => simp [Lexeme.stringBody, bare]
  | hidden c enclosed ih => simp [Lexeme.stringBody, ih, Lexeme.onto]
  | plain bare' inner enclosed ih =>
    rw [List.cons_append, Lexeme.stringBody, if_neg inner, ih]
    · rfl
    · intro d more same
      exact absurd same bare'

theorem stringBody_open (enclosed : Enclosed quote content) :
    Lexeme.stringBody quote content = (content, []) := by
  induction enclosed with
  | nil => rfl
  | hidden c enclosed ih => simp [Lexeme.stringBody, ih, Lexeme.onto]
  | plain bare inner enclosed ih =>
    rw [Lexeme.stringBody, if_neg inner, ih]
    · rfl
    · intro d more same
      exact absurd same bare

theorem stringBody_open_backslash (enclosed : Enclosed quote content) (bare : quote ≠ '\\') :
    Lexeme.stringBody quote (content ++ ['\\']) = (content ++ ['\\'], []) := by
  induction enclosed with
  | nil => simp [Lexeme.stringBody, bare.symm, Lexeme.onto]
  | hidden c enclosed ih => simp [Lexeme.stringBody, ih, Lexeme.onto]
  | plain bare' inner enclosed ih =>
    rw [List.cons_append, Lexeme.stringBody, if_neg inner, ih]
    · rfl
    · intro d more same
      exact absurd same bare'

theorem stringBody_sound (quote : Char) (source : Text) :
    ∃ content, Enclosed quote content ∧
      ((Lexeme.stringBody quote source).1 = content ++ [quote] ∨
        (Lexeme.stringBody quote source).2 = [] ∧
          ((Lexeme.stringBody quote source).1 = content ∨
            (Lexeme.stringBody quote source).1 = content ++ ['\\'])) := by
  fun_induction Lexeme.stringBody quote source with
  | case1 => exact ⟨[], .nil, .inr ⟨rfl, .inl rfl⟩⟩
  | case2 c rest ih =>
    obtain ⟨content, enclosed, ending⟩ := ih
    refine ⟨'\\' :: c :: content, .hidden c enclosed, ?_⟩
    simpa [Lexeme.onto] using ending
  | case3 rest _ => exact ⟨[], .nil, .inl rfl⟩
  | case4 c rest bare inner ih =>
    by_cases last : c = '\\'
    · subst c
      cases rest with
      | nil => exact ⟨[], .nil, .inr ⟨rfl, .inr rfl⟩⟩
      | cons d rest => exact absurd rfl (bare d rest rfl)
    · obtain ⟨content, enclosed, ending⟩ := ih
      refine ⟨c :: content, .plain last inner enclosed, ?_⟩
      simpa [Lexeme.onto] using ending

end Strings

namespace CommentPart

@[simp]
theorem depth_nil : depth [] = 0 := rfl

@[simp]
theorem depth_cons (part : CommentPart) (parts : List CommentPart) :
    depth (part :: parts) = part.change + depth parts := by
  simp [depth]

theorem ofText_flatMap (source : Text) : (ofText source).flatMap text = source := by
  fun_induction ofText source <;> simp_all [text]

/-- A comment of a given depth ends behind `inside`: the depth was not zero before, and it is now, or
there is no more. -/
structure Ends (level : Int) (inside behind : List CommentPart) : Prop where
  before : ∀ n < inside.length, 0 < level + depth (inside.take n)
  now : level + depth inside = 0 ∨ behind = [] ∧ 0 < level + depth inside

theorem Ends.cons {level : Int} {part : CommentPart} {inside behind : List CommentPart}
    (positive : 0 < level) (ends : Ends (level + part.change) inside behind) :
    Ends level (part :: inside) behind where
  before := by
    intro n small
    cases n with
    | zero => simpa using positive
    | succ n =>
      have := ends.before n (by simpa using small)
      simpa [add_assoc] using this
  now := by simpa [add_assoc] using ends.now

theorem Ends.unique {level : Int} {inside behind inside' behind' : List CommentPart}
    (ends : Ends level inside behind) (ends' : Ends level inside' behind')
    (same : inside ++ behind = inside' ++ behind') : inside = inside' ∧ behind = behind' := by
  have notShorter : ∀ {first rest second rest' : List CommentPart}, Ends level first rest →
      Ends level second rest' → first ++ rest = second ++ rest' →
      ¬ first.length < second.length := by
    intro first rest second rest' ends ends' same shorter
    have positive := ends'.before first.length shorter
    have front := congrArg (List.take first.length) same
    rw [List.take_left, List.take_append_of_le_length shorter.le] at front
    rw [← front] at positive
    rcases ends.now with zero | ⟨rfl, -⟩
    · omega
    · have := congrArg List.length same
      simp only [List.append_nil, List.length_append] at this
      omega
  have length : inside.length = inside'.length := by
    have := notShorter ends ends' same
    have := notShorter ends' ends same.symm
    omega
  exact List.append_inj same length

end CommentPart

open CommentPart in
theorem blockBody_sound (level : Nat) (source : Text) :
    ∃ inside behind, ofText source = inside ++ behind ∧ Ends level inside behind ∧
      Lexeme.blockBody level source = (inside.flatMap text, behind.flatMap text) := by
  -- induction on the cut; the level is what the marks read so far leave open
  fun_induction Lexeme.blockBody level source with
  | case1 source =>
    exact ⟨[], ofText source, rfl, ⟨by simp, .inl (by simp)⟩, by simp [ofText_flatMap]⟩
  | case2 level => exact ⟨[], [], rfl, ⟨by simp, .inr ⟨rfl, by simp⟩⟩, rfl⟩
  | case3 level rest ih =>
    obtain ⟨inside, behind, parts, ends, cut⟩ := ih
    refine ⟨opening :: inside, behind, by simp [ofText, parts], .cons (by omega) ?_, ?_⟩
    · simpa [change, add_assoc] using ends
    · simp [cut, Lexeme.onto, text]
  | case4 level rest ih =>
    obtain ⟨inside, behind, parts, ends, cut⟩ := ih
    refine ⟨closing :: inside, behind, by simp [ofText, parts], .cons (by omega) ?_, ?_⟩
    · simpa [change] using ends
    · simp [cut, Lexeme.onto, text]
  | case5 level c rest notOpening notClosing ih =>
    obtain ⟨inside, behind, parts, ends, cut⟩ := ih
    refine ⟨other c :: inside, behind, ?_, .cons (by omega) ?_, ?_⟩
    · rw [ofText, parts]
      · rfl
      · exact notOpening
      · exact notClosing
    · simpa [change] using ends
    · simp [cut, Lexeme.onto, text]

open CommentPart in
theorem blockBody_complete {level : Nat} {source : Text} {inside behind : List CommentPart}
    (parts : ofText source = inside ++ behind) (ends : Ends level inside behind) :
    Lexeme.blockBody level source = (inside.flatMap text, behind.flatMap text) := by
  obtain ⟨inside', behind', parts', ends', cut⟩ := blockBody_sound level source
  obtain ⟨rfl, rfl⟩ := ends.unique ends' (parts.symm.trans parts')
  exact cut

end ScriptLiterals
