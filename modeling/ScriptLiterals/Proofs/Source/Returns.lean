import ScriptLiterals.Proofs.Source.LineBreak
import ScriptLiterals.Proofs.Source.Reworded
import ScriptLiterals.Proofs.Source.Tokens
import ScriptLiterals.Proofs.Text.Returns

/-!
Cutting a script with carriage returns before its line feeds. Outside of strings and comments a return
is a region of its own, at the end of a line comment it belongs to the comment, and everywhere else it
is inside the region that the line feed is in. The numbers are the same, on the same lines and in the
same columns.

Main statement: `Token.ofSource_withReturns`.
-/

namespace ScriptLiterals

variable {text text' rest rest' source source' : Text} {lexeme : Lexeme} {cut cut' : List Lexeme}

theorem WithReturns.endsAsBefore (spelled : WithReturns rest rest') : EndsAsBefore rest rest' :=
  .of_front WithReturns (fun goesOn spelled => spelled.exists_of_cons goesOn.ne_return) spelled

namespace Lexeme

def carriageReturn : Lexeme := ⟨.other, ['\r']⟩

theorem isRegion_carriageReturn (rest : Text) : carriageReturn.IsRegion rest :=
  ⟨'\r', rfl, by decide, by decide, by simp⟩

structure Returned (lexeme lexeme' : Lexeme) : Prop where
  kind_eq : lexeme'.kind = lexeme.kind
  spelled : WithReturns lexeme.text lexeme'.text
  number : ∀ kind, lexeme.kind = .number kind → lexeme'.text = lexeme.text

theorem Returned.of_oneLine (kind : LexemeKind) (oneLine : '\n' ∉ text)
    (spelled : WithReturns text text') : Returned ⟨kind, text⟩ ⟨kind, text'⟩ where
  kind_eq := rfl
  spelled := spelled
  number := fun _ _ => spelled.eq_of_oneLine oneLine

theorem idleInString_of_isQuote {quote : Char} (isQuote' : isQuote quote = true) :
    IdleInString quote '\n' ∧ IdleInString quote '\r' := by
  have different : ∀ {c}, isQuote c = false → c ≠ quote := by
    rintro c noQuote rfl
    rw [isQuote'] at noQuote
    contradiction
  exact ⟨⟨different rfl, by decide⟩, different rfl, by decide⟩

/-- What becomes of a region when line feeds get carriage returns: a line feed of its own gets another
region before it, a line comment gets the return of the line feed behind it, and any other region
stays one. -/
theorem IsRegion.withReturns (region : lexeme.IsRegion rest)
    (first : WithReturns lexeme.text text')
    (second : WithReturns rest rest') :
    (lexeme = newline ∧ text' = ['\r', '\n']) ∨
      (∃ text more more', lexeme = ⟨.lineComment, text⟩ ∧ text' = text ∧ rest = '\n' :: more ∧
        rest' = '\r' :: '\n' :: more' ∧ WithReturns more more' ∧
        IsRegion ⟨.lineComment, text ++ ['\r']⟩ ('\n' :: more')) ∨
      lexeme.Returned ⟨lexeme.kind, text'⟩ ∧ IsRegion ⟨lexeme.kind, text'⟩ rest' := by
  have ends := second.endsAsBefore
  have last : rest = [] → rest' = [] := by
    rintro rfl
    exact second.eq_nil
  obtain ⟨kind, text⟩ := lexeme
  cases kind with
  | lineComment =>
    obtain ⟨content, rfl, inside, ending⟩ : IsLineComment text rest := region
    have oneLine : '\n' ∉ '/' :: '/' :: content := by simpa using inside
    have stays := Returned.of_oneLine .lineComment oneLine first
    obtain rfl := first.eq_of_oneLine oneLine
    rcases ending with nil | ⟨more, rfl⟩
    · exact .inr (.inr ⟨stays, content, rfl, inside, .inl (last nil)⟩)
    · rcases second.cases_cons with ⟨more', rfl, -⟩ | ⟨-, more', rfl, others⟩
      · exact .inr (.inr ⟨stays, content, rfl, inside, .inr ⟨more', rfl⟩⟩)
      -- the return is no line feed, so the comment takes it along
      · refine .inr (.inl ⟨_, more, more', rfl, rfl, rfl, rfl, others, content ++ ['\r'], rfl, ?_,
          .inr ⟨more', rfl⟩⟩)
        simpa using inside
  | blockComment =>
    obtain ⟨content, rfl, -⟩ := blockComment_complete region
    obtain ⟨_, rfl, behind⟩ := first.exists_cons_of_ne_newline (by decide)
    obtain ⟨content', rfl, inner⟩ := behind.exists_cons_of_ne_newline (by decide)
    have words : Reworded IdleInComment content content' :=
      inner.reworded (by decide) (by decide)
    exact .inr (.inr ⟨⟨rfl, first, by simp⟩, IsBlockComment.reworded region words last⟩)
  | string =>
    obtain ⟨quote, content, isQuote', rfl, -⟩ := string_complete region
    obtain ⟨feed, return'⟩ := idleInString_of_isQuote isQuote'
    obtain ⟨content', rfl, inner⟩ := first.exists_cons_of_ne_newline feed.1.symm
    have words := inner.reworded feed return'
    exact .inr (.inr ⟨⟨rfl, first, by simp⟩, IsString.reworded region words last⟩)
  | identifier =>
    have identifier : IsIdentifier text rest := region
    have oneLine : '\n' ∉ text := by
      obtain ⟨c, more, -, -, isRun⟩ := identifier
      exact fun feed => absurd (isRun.1 _ feed) (by decide)
    have stays := Returned.of_oneLine .identifier oneLine first
    obtain rfl := first.eq_of_oneLine oneLine
    exact .inr (.inr ⟨stays, IsIdentifier.endsAsBefore identifier ends⟩)
  | number kind =>
    have number : IsNumber kind text rest := region
    have oneLine := newline_not_mem_of_isNumberChar number.characters
    have stays := Returned.of_oneLine (.number kind) oneLine first
    obtain rfl := first.eq_of_oneLine oneLine
    exact .inr (.inr ⟨stays, number.endsAsBefore ends⟩)
  | other =>
    have other : IsOther text rest := region
    obtain ⟨c, rfl, -⟩ := other
    rcases first.cases_cons with ⟨_, rfl, none⟩ | ⟨rfl, _, rfl, none⟩
    · obtain rfl := none.eq_nil
      exact .inr (.inr ⟨⟨rfl, first, by simp⟩, IsOther.endsAsBefore region ends⟩)
    · obtain rfl := none.eq_nil
      exact .inl ⟨rfl, rfl⟩

end Lexeme

/-- The regions of a script without carriage returns, and what they are with some. -/
inductive CutWithReturns : List Lexeme → List Lexeme → Prop
  | nil : CutWithReturns [] []
  | region {lexeme lexeme' : Lexeme} {cut cut' : List Lexeme} (same : lexeme.Returned lexeme')
      (more : CutWithReturns cut cut') : CutWithReturns (lexeme :: cut) (lexeme' :: cut')
  | newline {cut cut' : List Lexeme} (more : CutWithReturns cut cut') :
      CutWithReturns (Lexeme.newline :: cut) (Lexeme.carriageReturn :: Lexeme.newline :: cut')
  | comment (text : Text) {cut cut' : List Lexeme} (more : CutWithReturns cut cut') :
      CutWithReturns (⟨.lineComment, text⟩ :: Lexeme.newline :: cut)
        (⟨.lineComment, text ++ ['\r']⟩ :: Lexeme.newline :: cut')

theorem IsCutInto.newline_cons (isCut : IsCutInto ('\n' :: source) cut) :
    ∃ more, cut = Lexeme.newline :: more ∧ IsCutInto source more := by
  have cutBehind := isCutInto_lexemes source
  have whole : IsCutInto ('\n' :: source) (Lexeme.newline :: lexemes source) :=
    .cons (Lexeme.isRegion_newline source) cutBehind
  refine ⟨lexemes source, ?_, cutBehind⟩
  rw [(isCutInto_iff ..).mp isCut, (isCutInto_iff ..).mp whole]

theorem IsCutInto.withReturns (isCut : IsCutInto source cut) (spelled : WithReturns source source') :
    ∃ cut', IsCutInto source' cut' ∧ CutWithReturns cut cut' := by
  induction isCut generalizing source' with
  | nil =>
    obtain rfl := spelled.eq_nil
    exact ⟨[], .nil, .nil⟩
  | @cons lexeme rest more region isCut ih =>
    obtain ⟨text', rest', rfl, first, second⟩ := spelled.exists_append
    rcases region.withReturns first second with ⟨rfl, rfl⟩ |
      ⟨text, inner, inner', rfl, rfl, rfl, rfl, others, comment⟩ | ⟨same, region'⟩
    · obtain ⟨cut', isCut', alike⟩ := ih second
      exact ⟨_, .cons (Lexeme.isRegion_carriageReturn _) (.cons (Lexeme.isRegion_newline _) isCut'),
        .newline alike⟩
    · -- without its return the line feed behind the comment is cut as in the script without returns
      obtain ⟨behind, isCut', alike⟩ := ih (others.kept '\n')
      obtain ⟨cut, rfl, -⟩ := isCut.newline_cons
      obtain ⟨cut', rfl, -⟩ := isCut'.newline_cons
      have alike : CutWithReturns cut cut' := by
        cases alike with
        | region _ more => exact more
      have whole := IsCutInto.cons comment isCut'
      rw [List.append_assoc] at whole
      exact ⟨_, whole, .comment _ alike⟩
    · obtain ⟨cut', isCut', alike⟩ := ih second
      exact ⟨_, .cons region' isCut', .region same alike⟩

namespace Position

structure SamePlace (p p' : Position) : Prop where
  line_eq : p'.line = p.line
  column_eq : p'.column = p.column

variable {p p' : Position}

theorem SamePlace.next (same : p.SamePlace p') (c : Char) : (p.next c).SamePlace (p'.next c) := by
  unfold Position.next
  split
  · exact ⟨by simp [same.line_eq], rfl⟩
  · exact ⟨same.line_eq, by simp [same.column_eq]⟩

theorem SamePlace.after (same : p.SamePlace p') (spelled : WithReturns text text') :
    (p.after text).SamePlace (p'.after text') := by
  induction spelled generalizing p p' with
  | nil => exact same
  | @cons c piece text text' spelled more ih =>
    rcases spelled with rfl | ⟨rfl, rfl⟩
    · exact ih (same.next c)
    · -- behind the line feed the column does not depend on the return before it
      have feed : (p.next '\n').SamePlace ((p'.next '\r').next '\n') :=
        ⟨by simp [Position.next, same.line_eq], rfl⟩
      exact ih feed

theorem SamePlace.advance (same : p.SamePlace p') (count : Int) :
    (p.advance count).SamePlace (p'.advance count) :=
  ⟨same.line_eq, by simp [Position.advance, same.column_eq]⟩

/-- The same line and the same column, and an offset that is larger by the number of carriage returns
before it. -/
structure CountsReturns (source' : Text) (p p' : Position) : Prop where
  place : p.SamePlace p'
  offset_eq : p'.offset = p.offset + (source'.take p'.offset.toNat).count '\r'

theorem countsReturns_after {before before' : Text} (spelled : WithReturns before before')
    (noReturn : '\r' ∉ before) (rest : Text) :
    CountsReturns (before' ++ rest) (start.after before) (start.after before') where
  place := SamePlace.after ⟨rfl, rfl⟩ spelled
  offset_eq := by
    have length := spelled.length_eq noReturn
    have offset : (start.after before').offset = before'.length := by simp [offset_after, start]
    rw [offset, offset_after, Int.toNat_natCast, List.take_left, length]
    simp [start]

end Position

structure Token.CountsReturns (source' : Text) (token token' : Token) : Prop where
  kind_eq : token'.kind = token.kind
  text_eq : token'.text = token.text
  start : token.span.start.CountsReturns source' token'.span.start
  stop : token.span.stop.CountsReturns source' token'.span.stop

theorem CutWithReturns.ofLexemes (alike : CutWithReturns cut cut') {before before' : Text}
    (spelled : WithReturns before before') (noReturn : '\r' ∉ before ++ Lexeme.joinedText cut) :
    List.Forall₂ (Token.CountsReturns (before' ++ Lexeme.joinedText cut'))
      (Token.ofLexemes (Position.start.after before) cut)
      (Token.ofLexemes (Position.start.after before') cut') := by
  -- induction on the two cuts; `before` is what has been passed, with the returns in it
  induction alike generalizing before before' with
  | nil => exact .nil
  | @region lexeme lexeme' cut cut' same more ih =>
    rw [Lexeme.joinedText_cons, ← List.append_assoc] at noReturn ⊢
    have whole := spelled.append same.spelled
    have others := ih whole noReturn
    have front : '\r' ∉ before ++ lexeme.text := fun member => noReturn (List.mem_append_left _ member)
    have noReturnBefore : '\r' ∉ before := fun member => front (List.mem_append_left _ member)
    have start := Position.countsReturns_after spelled noReturnBefore
      (lexeme'.text ++ Lexeme.joinedText cut')
    have stop := Position.countsReturns_after whole front (Lexeme.joinedText cut')
    rw [← List.append_assoc] at start
    rw [Position.after_append, Position.after_append] at others stop
    cases kind : lexeme.kind with
    | number number =>
      simp only [Token.ofLexemes, same.kind_eq, kind]
      exact .cons ⟨rfl, same.number number kind, start, stop⟩ others
    | _ =>
      simp only [Token.ofLexemes, same.kind_eq, kind]
      exact others
  | @newline cut cut' more ih =>
    have whole := spelled.append (WithReturns.returned .nil)
    have others := ih whole (by simpa [Lexeme.newline] using noReturn)
    simpa [Lexeme.newline, Lexeme.carriageReturn, Token.ofLexemes, Position.after_append,
      Position.after_cons] using others
  | @comment text cut cut' more ih =>
    have comment := (WithReturns.refl text).append (WithReturns.returned .nil)
    have others := ih (spelled.append comment) (by simpa [Lexeme.newline] using noReturn)
    simpa [Lexeme.newline, Token.ofLexemes, Position.after_append, Position.after_cons] using others

theorem Token.ofSource_withReturns (noReturn : '\r' ∉ source) (spelled : WithReturns source source') :
    List.Forall₂ (Token.CountsReturns source') (Token.ofSource source) (Token.ofSource source') := by
  obtain ⟨cut', isCut', alike⟩ := (isCutInto_lexemes source).withReturns spelled
  obtain rfl := (isCutInto_iff ..).mp isCut'
  have whole : Lexeme.joinedText (lexemes source) = source := lexemes_flatten source
  have whole' : Lexeme.joinedText (lexemes source') = source' := lexemes_flatten source'
  have numbers := alike.ofLexemes .nil (by rwa [List.nil_append, whole])
  have stop := Position.countsReturns_after spelled noReturn []
  rw [List.nil_append, whole'] at numbers
  rw [List.append_nil] at stop
  rw [ofSource_eq, ofSource_eq]
  exact List.rel_append numbers (.cons ⟨rfl, rfl, stop, stop⟩ .nil)

end ScriptLiterals
