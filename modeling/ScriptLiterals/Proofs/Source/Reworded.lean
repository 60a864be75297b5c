import ScriptLiterals.Proofs.Source.Ending
import ScriptLiterals.Proofs.Text.Respelled

/-!
Regions whose inside is worded anew. The end of a string depends on its quotes and backslashes only,
that of a block comment on its slashes and asterisks, that of a line comment on the line feed behind
it and that of an identifier on what is no word character.

Main statement: `Lexeme.IsRegion.reworded`.
-/

namespace ScriptLiterals

variable {text text' rest rest' content content' piece : Text} {quote : Char}

def IdleInString (quote c : Char) : Prop := c ≠ quote ∧ c ≠ '\\'

theorem Enclosed.append_idle (idle : ∀ c ∈ piece, IdleInString quote c)
    (enclosed : Enclosed quote content) : Enclosed quote (piece ++ content) := by
  induction piece with
  | nil => exact enclosed
  | cons c piece ih =>
    obtain ⟨first, others⟩ := List.forall_mem_cons.mp idle
    exact .plain first.2 first.1 (ih others)

theorem Enclosed.reworded (enclosed : Enclosed quote content)
    (words : Reworded (IdleInString quote) content content') : Enclosed quote content' := by
  induction enclosed generalizing content' with
  | nil =>
    obtain rfl := words.eq_nil
    exact .nil
  | hidden c enclosed ih =>
    obtain ⟨behind, rfl, behindWords⟩ := words.exists_cons_of_not fun idle => idle.2 rfl
    obtain ⟨piece, more, rfl, spelled, others⟩ := behindWords.exists_cons
    -- the backslash hides only the first of the characters that stand for the hidden one
    rcases spelled with rfl | ⟨-, nonempty, idle⟩
    · exact .hidden c (ih others)
    · obtain ⟨d, piece, rfl⟩ := List.exists_cons_of_ne_nil nonempty
      exact .hidden d ((ih others).append_idle (List.forall_mem_cons.mp idle).2)
  | plain bare inner enclosed ih =>
    obtain ⟨piece, more, rfl, rfl | ⟨-, -, idle⟩, others⟩ := words.exists_cons
    · exact .plain bare inner (ih others)
    · exact (ih others).append_idle idle

theorem IsString.reworded (string : IsString (quote :: content) rest)
    (words : Reworded (IdleInString quote) content content') (ends : rest = [] → rest' = []) :
    IsString (quote :: content') rest' := by
  obtain ⟨quote', inside, isQuote', enclosed, closed | ⟨last, opened | opened⟩⟩ := string
  · obtain ⟨rfl, rfl⟩ := List.cons.inj closed
    obtain ⟨inside', rfl, others⟩ := words.exists_concat fun idle => idle.1 rfl
    exact ⟨quote, inside', isQuote', enclosed.reworded others, .inl rfl⟩
  · obtain ⟨rfl, rfl⟩ := List.cons.inj opened
    exact ⟨quote, content', isQuote', enclosed.reworded words, .inr ⟨ends last, .inl rfl⟩⟩
  · obtain ⟨rfl, rfl⟩ := List.cons.inj opened
    obtain ⟨inside', rfl, others⟩ := words.exists_concat fun idle => idle.2 rfl
    exact ⟨quote, inside', isQuote', enclosed.reworded others, .inr ⟨ends last, .inr rfl⟩⟩

def IdleInComment (c : Char) : Prop := c ≠ '/' ∧ c ≠ '*'

instance (c : Char) : Decidable (IdleInComment c) := inferInstanceAs (Decidable (_ ∧ _))

namespace Lexeme

theorem blockBody_idle (depth : Nat) {c : Char} (idle : IdleInComment c) (source : Text) :
    blockBody (depth + 1) (c :: source) = onto c (blockBody (depth + 1) source) := by
  rw [blockBody]
  · intro more slash
    exact absurd slash idle.1
  · intro more star
    exact absurd star idle.2

theorem blockBody_append_idle (depth : Nat) (idle : ∀ c ∈ piece, IdleInComment c)
    (cut : blockBody (depth + 1) text = (content, rest)) :
    blockBody (depth + 1) (piece ++ text) = (piece ++ content, rest) := by
  induction piece with
  | nil => exact cut
  | cons c piece ih =>
    obtain ⟨first, others⟩ := List.forall_mem_cons.mp idle
    rw [List.cons_append, blockBody_idle depth first, ih others]
    rfl

theorem onto_eq_iff {c : Char} {cut : Cut} :
    onto c cut = (text, rest) ↔ ∃ more, text = c :: more ∧ cut = (more, rest) := by
  obtain ⟨front, back⟩ := cut
  simp only [onto, Prod.mk.injEq]
  constructor
  · rintro ⟨rfl, rfl⟩
    exact ⟨front, rfl, rfl, rfl⟩
  · rintro ⟨more, rfl, rfl, rfl⟩
    exact ⟨rfl, rfl⟩

theorem eq_nil_of_blockBody {depth : Nat} {source : Text}
    (cut : blockBody (depth + 1) source = ([], rest)) : source = [] := by
  rw [blockBody.eq_def] at cut
  split at cut
  · contradiction
  · rfl
  all_goals
    obtain ⟨more, same, -⟩ := onto_eq_iff.mp cut
    contradiction

/-- What is no idle character stands at the front of a comment's new inside only if it stood at the
front of the old one. -/
theorem exists_cons_of_busy_head {depth : Nat} {source tail : Text} {d : Char}
    (cut : blockBody (depth + 1) source = (content, rest))
    (words : Reworded IdleInComment content content') (ends : rest = [] → rest' = [])
    (busy : ¬ IdleInComment d) (head : content' ++ rest' = d :: tail) :
    ∃ tail, source = d :: tail := by
  cases content with
  | nil =>
    obtain rfl := eq_nil_of_blockBody cut
    obtain rfl : [] = rest := (Prod.mk.inj cut).2
    obtain rfl := words.eq_nil
    rw [ends rfl] at head
    contradiction
  | cons c content =>
    have whole := blockBody_append (depth + 1) source
    rw [cut] at whole
    obtain ⟨piece, more, rfl, rfl | ⟨-, nonempty, idle⟩, -⟩ := words.exists_cons
    · obtain rfl : c = d := (List.cons.inj head).1
      exact ⟨_, whole.symm⟩
    · obtain ⟨e, piece, rfl⟩ := List.exists_cons_of_ne_nil nonempty
      obtain rfl : e = d := (List.cons.inj head).1
      exact absurd (idle e List.mem_cons_self) busy

theorem blockBody_reworded {depth : Nat} {source : Text}
    (cut : blockBody depth source = (content, rest)) (words : Reworded IdleInComment content content')
    (ends : rest = [] → rest' = []) : blockBody depth (content' ++ rest') = (content', rest') := by
  -- induction on the old cut; marks are kept and idle characters open or close nothing
  fun_induction blockBody depth source generalizing content content' with
  | case1 source =>
    obtain ⟨rfl, rfl⟩ := Prod.mk.inj cut
    obtain rfl := words.eq_nil
    rw [blockBody, List.nil_append]
  | case2 depth =>
    obtain ⟨rfl, rfl⟩ := Prod.mk.inj cut
    obtain rfl := words.eq_nil
    rw [ends rfl]
    rfl
  | case3 depth inner ih =>
    obtain ⟨_, rfl, second⟩ := onto_eq_iff.mp cut
    obtain ⟨more, rfl, body⟩ := onto_eq_iff.mp second
    obtain ⟨_, rfl, behind⟩ := words.exists_cons_of_not fun idle => idle.1 rfl
    obtain ⟨more', rfl, others⟩ := behind.exists_cons_of_not fun idle => idle.2 rfl
    rw [List.cons_append, List.cons_append, blockBody, ih body others]
    rfl
  | case4 depth inner ih =>
    obtain ⟨_, rfl, second⟩ := onto_eq_iff.mp cut
    obtain ⟨more, rfl, body⟩ := onto_eq_iff.mp second
    obtain ⟨_, rfl, behind⟩ := words.exists_cons_of_not fun idle => idle.2 rfl
    obtain ⟨more', rfl, others⟩ := behind.exists_cons_of_not fun idle => idle.1 rfl
    rw [List.cons_append, List.cons_append, blockBody, ih body others]
    rfl
  | case5 depth c inner notOpening notClosing ih =>
    obtain ⟨more, rfl, body⟩ := onto_eq_iff.mp cut
    obtain ⟨piece, more', rfl, rfl | ⟨-, -, idle⟩, others⟩ := words.exists_cons
    · -- `c` forms no mark with what follows now, since it formed none with what followed before
      rw [List.append_assoc, List.singleton_append, blockBody, ih body others]
      · rfl
      · intro tail slash same
        obtain ⟨tail, rfl⟩ := exists_cons_of_busy_head body others ends (fun idle => idle.2 rfl) same
        exact notOpening tail slash rfl
      · intro tail star same
        obtain ⟨tail, rfl⟩ := exists_cons_of_busy_head body others ends (fun idle => idle.1 rfl) same
        exact notClosing tail star rfl
    · rw [List.append_assoc]
      exact blockBody_append_idle depth idle (ih body others)

end Lexeme

theorem IsBlockComment.reworded (comment : IsBlockComment ('/' :: '*' :: content) rest)
    (words : Reworded IdleInComment content content') (ends : rest = [] → rest' = []) :
    IsBlockComment ('/' :: '*' :: content') rest' := by
  obtain ⟨_, same, cut⟩ := blockComment_complete comment
  obtain ⟨-, rfl⟩ : '*' = '*' ∧ content = _ := by simpa using same
  have sound := blockComment_sound (content' ++ rest')
  rwa [Lexeme.blockBody_reworded cut words ends] at sound

namespace Lexeme

/-- The same region with another wording: another inside of a string, a comment or an identifier. -/
inductive Rewording : Lexeme → Lexeme → Prop
  | string {quote : Char} {content content' : Text}
      (words : Reworded (IdleInString quote) content content') :
      Rewording ⟨.string, quote :: content⟩ ⟨.string, quote :: content'⟩
  | blockComment {content content' : Text}
      (words : Reworded IdleInComment content content') :
      Rewording ⟨.blockComment, '/' :: '*' :: content⟩ ⟨.blockComment, '/' :: '*' :: content'⟩
  | lineComment {content content' : Text} (oneLine : '\n' ∉ content') :
      Rewording ⟨.lineComment, '/' :: '/' :: content⟩ ⟨.lineComment, '/' :: '/' :: content'⟩
  | identifier {c : Char} {content content' : Text} (word : ∀ d ∈ content', isWordChar d = true) :
      Rewording ⟨.identifier, c :: content⟩ ⟨.identifier, c :: content'⟩
  | number (kind : NumberKind) (text : Text) : Rewording ⟨.number kind, text⟩ ⟨.number kind, text⟩
  | other (text : Text) : Rewording ⟨.other, text⟩ ⟨.other, text⟩

theorem IsRegion.reworded {lexeme lexeme' : Lexeme} (region : lexeme.IsRegion rest)
    (words : lexeme.Rewording lexeme') (ends : EndsAsBefore rest rest') (last : rest = [] → rest' = [])
    (feed : ∀ more, rest = '\n' :: more → ∃ more', rest' = '\n' :: more') :
    lexeme'.IsRegion rest' := by
  cases words with
  | string words => exact IsString.reworded region words last
  | blockComment words => exact IsBlockComment.reworded region words last
  | lineComment oneLine =>
    obtain ⟨_, -, -, ending⟩ : IsLineComment _ rest := region
    refine ⟨_, rfl, oneLine, ?_⟩
    rcases ending with nil | ⟨more, cons⟩
    · exact .inl (last nil)
    · exact .inr (feed more cons)
  | identifier word =>
    obtain ⟨c, content, same, starts, isRun⟩ := IsIdentifier.endsAsBefore region ends
    obtain ⟨rfl, rfl⟩ := List.cons.inj same
    refine ⟨_, _, rfl, starts, ?_, isRun.2⟩
    exact List.forall_mem_cons.mpr ⟨isWordChar_of_startsIdentifier starts, word⟩
  | number kind text => exact IsNumber.endsAsBefore region ends
  | other text => exact IsOther.endsAsBefore region ends

end Lexeme

end ScriptLiterals
