import ScriptLiterals.Proofs.Text.Lines
import ScriptLiterals.Proofs.Text.Respelled

/-!
Texts with carriage returns before some of their line feeds. The returns do not change how many lines
there are nor what is shown of them, and reading a text with line feeds only takes them away.

Main statements: `WithReturns.map_shown_lines`, `withReturns_withLineFeeds`.
-/

namespace ScriptLiterals

abbrev WithReturns : Text → Text → Prop :=
  Respelled fun c piece => piece = [c] ∨ c = '\n' ∧ piece = ['\r', '\n']

namespace WithReturns

variable {text text' : Text} {c : Char}

theorem kept (c : Char) (spelled : WithReturns text text') : WithReturns (c :: text) (c :: text') :=
  .cons (.inl rfl) spelled

theorem returned (spelled : WithReturns text text') :
    WithReturns ('\n' :: text) ('\r' :: '\n' :: text') :=
  .cons (.inr ⟨rfl, rfl⟩) spelled

protected theorem refl (text : Text) : WithReturns text text := by
  induction text with
  | nil => exact .nil
  | cons c text ih => exact ih.kept c

theorem cases_cons (spelled : WithReturns (c :: text) text') :
    (∃ more, text' = c :: more ∧ WithReturns text more) ∨
      c = '\n' ∧ ∃ more, text' = '\r' :: '\n' :: more ∧ WithReturns text more := by
  obtain ⟨piece, more, rfl, rfl | ⟨feed, rfl⟩, others⟩ := spelled.exists_cons
  · exact .inl ⟨more, rfl, others⟩
  · exact .inr ⟨feed, more, rfl, others⟩

theorem exists_cons_of_ne_newline (spelled : WithReturns (c :: text) text') (visible : c ≠ '\n') :
    ∃ more, text' = c :: more ∧ WithReturns text more :=
  spelled.cases_cons.resolve_right fun feed => visible feed.1

theorem exists_of_cons {more : Text} (spelled : WithReturns text (c :: more)) (visible : c ≠ '\r') :
    ∃ behind, text = c :: behind ∧ WithReturns behind more := by
  cases text with
  | nil => exact absurd spelled.eq_nil (List.cons_ne_nil c more)
  | cons d text =>
    rcases spelled.cases_cons with ⟨_, same, others⟩ | ⟨-, _, same, -⟩
    · obtain ⟨rfl, rfl⟩ := List.cons.inj same
      exact ⟨text, rfl, others⟩
    · exact absurd (List.cons.inj same).1 visible

theorem eq_of_oneLine (spelled : WithReturns text text') (oneLine : '\n' ∉ text) : text' = text := by
  apply spelled.eq_of_kept
  rintro c member piece (kept | ⟨rfl, -⟩)
  · exact kept
  · exact absurd member oneLine

theorem length_eq (spelled : WithReturns text text') (noReturn : '\r' ∉ text) :
    text'.length = text.length + text'.count '\r' := by
  induction spelled with
  | nil => rfl
  | cons spelled _ ih =>
    obtain ⟨other, noReturn⟩ := not_or.mp (mt List.mem_cons.mpr noReturn)
    have := ih noReturn
    rcases spelled with rfl | ⟨rfl, rfl⟩
    · simp [Ne.symm other, this]
      omega
    · simp [this]
      omega

theorem reworded {idle : Char → Prop} (spelled : WithReturns text text') (feed : idle '\n')
    (return' : idle '\r') : Reworded idle text text' := by
  apply spelled.mono
  rintro c - piece (kept | ⟨rfl, rfl⟩)
  · exact .inl kept
  · exact .inr ⟨feed, by simp, by simp [feed, return']⟩

end WithReturns

namespace Text

variable {text text' : Text} {c : Char}

theorem lines_lineEnd (ending : isLineEnd c = true) (visible : c ≠ '\r') (rest : Text) :
    lines (c :: rest) = [c] :: lines rest := by
  rw [lines.eq_def (c :: rest)]
  split
  · contradiction
  · next same => exact absurd (List.cons.inj same).1 visible
  · next same =>
    obtain ⟨rfl, rfl⟩ := List.cons.inj same
    rw [if_pos ending]

theorem map_shown_lines_cons (inner : isLineEnd c = false) (rest : Text) :
    (lines (c :: rest)).map shown =
      (c :: ((lines rest).map shown).headD []) :: ((lines rest).map shown).tail := by
  have one : ∀ d ∈ [c], isLineEnd d = false := by simpa using inner
  have front : ∀ line, shown (c :: line) = c :: shown line := shown_append one
  rw [lines_cons inner, List.map_cons, front]
  cases lines rest <;> rfl

end Text

theorem WithReturns.map_shown_lines {text text' : Text} (spelled : WithReturns text text')
    (noReturn : '\r' ∉ text) :
    (Text.lines text').map Text.shown = (Text.lines text).map Text.shown := by
  induction spelled with
  | nil => rfl
  | @cons c piece text text' spelled more ih =>
    obtain ⟨other, noReturn⟩ := not_or.mp (mt List.mem_cons.mpr noReturn)
    have ih := ih noReturn
    rcases spelled with rfl | ⟨rfl, rfl⟩
    · cases ending : Text.isLineEnd c with
      | true =>
        rw [List.singleton_append, Text.lines_lineEnd ending (Ne.symm other),
          Text.lines_lineEnd ending (Ne.symm other), List.map_cons, List.map_cons, ih]
      | false =>
        rw [List.singleton_append, Text.map_shown_lines_cons ending,
          Text.map_shown_lines_cons ending, ih]
    · exact congrArg ([] :: ·) ih

def Text.ReturnsAtLineEnds (text : Text) : Prop :=
  ∀ index : Nat, text[index]? = some '\r' → text[index + 1]? = some '\n'

instance (text : Text) : Decidable text.ReturnsAtLineEnds :=
  decidable_of_iff (∀ index < text.length, text[index]? = some '\r' → text[index + 1]? = some '\n')
    ⟨fun inside index here => inside index (List.getElem?_eq_some_iff.mp here).1 here,
      fun returns index _ => returns index⟩

theorem Text.ReturnsAtLineEnds.of_cons {c : Char} {text : Text}
    (returns : ReturnsAtLineEnds (c :: text)) : text.ReturnsAtLineEnds :=
  fun index => returns (index + 1)

theorem withReturns_withLineFeeds {text : Text} (returns : text.ReturnsAtLineEnds) :
    WithReturns text.withLineFeeds text ∧ '\r' ∉ text.withLineFeeds := by
  fun_induction Text.withLineFeeds text with
  | case1 => exact ⟨.nil, by simp⟩
  | case2 rest ih =>
    obtain ⟨spelled, noReturn⟩ := ih returns.of_cons.of_cons
    exact ⟨spelled.returned, by simp [noReturn]⟩
  | case3 c rest noPair ih =>
    obtain ⟨spelled, noReturn⟩ := ih returns.of_cons
    have visible : c ≠ '\r' := by
      rintro rfl
      have feed : rest[0]? = some '\n' := returns 0 rfl
      obtain ⟨more, rfl⟩ := List.head?_eq_some_iff.mp (List.head?_eq_getElem?.trans feed)
      exact noPair more rfl rfl
    rw [if_neg visible]
    exact ⟨spelled.kept c, by simp [noReturn, visible.symm]⟩

end ScriptLiterals
