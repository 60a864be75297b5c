import Mathlib.Data.List.DropRight
import ScriptLiterals.Proofs.Source.LineBreak
import ScriptLiterals.Proofs.Source.Reworded
import ScriptLiterals.Proofs.Source.Tokens

/-!
Strings and comments that have their end. Any text can be put into a string with backslashes, and any
text with matching comment marks into a block comment; what stands behind is read as if it began a
script.

Main statement: `Token.ofSource_behind_complete`.
-/

namespace ScriptLiterals

def Text.backslashed (quote : Char) (text : Text) : Text :=
  text.flatMap fun c => if c = quote ∨ c = '\\' then ['\\', c] else [c]

/-- A text in which slashes and asterisks stand only in marks that open and close comments, each
opening mark with its closing one. -/
inductive IsNested : Text → Prop
  | nil : IsNested []
  | plain {c : Char} {text : Text} (idle : IdleInComment c) (nested : IsNested text) :
      IsNested (c :: text)
  | comment {inner text : Text} (inside : IsNested inner) (nested : IsNested text) :
      IsNested ('/' :: '*' :: (inner ++ '*' :: '/' :: text))

/-- A string or a block comment with the mark that closes it, or a line comment with its line feed. -/
inductive IsComplete : Text → Prop
  | string {quote : Char} (isQuote' : isQuote quote = true) (content : Text) :
      IsComplete (quote :: (Text.backslashed quote content ++ [quote]))
  | blockComment {body : Text} (nested : IsNested body) :
      IsComplete ('/' :: '*' :: (body ++ ['*', '/']))
  | lineComment {content : Text} (oneLine : '\n' ∉ content) :
      IsComplete ('/' :: '/' :: (content ++ ['\n']))

theorem enclosed_backslashed (quote : Char) (content : Text) :
    Enclosed quote (Text.backslashed quote content) := by
  induction content with
  | nil => exact .nil
  | cons c content ih =>
    rw [Text.backslashed, List.flatMap_cons]
    split_ifs with marked
    · exact .hidden c ih
    · have ⟨inner, bare⟩ := not_or.mp marked
      exact .plain bare inner ih

theorem Lexeme.blockBody_nested {body : Text} (nested : IsNested body) (depth : Nat) (rest : Text) :
    blockBody (depth + 1) (body ++ rest) =
      (body ++ (blockBody (depth + 1) rest).1, (blockBody (depth + 1) rest).2) := by
  induction nested generalizing depth rest with
  | nil => rfl
  | plain idle nested ih =>
    rw [List.cons_append, blockBody_idle depth idle, ih]
    rfl
  | @comment inner text inside nested insideIh ih =>
    have split : '/' :: '*' :: (inner ++ '*' :: '/' :: text) ++ rest =
        '/' :: '*' :: (inner ++ '*' :: '/' :: (text ++ rest)) := by simp
    rw [split, blockBody, insideIh, blockBody, ih]
    simp [onto]

theorem isBlockComment_of_isNested {body : Text} (nested : IsNested body) (rest : Text) :
    IsBlockComment ('/' :: '*' :: (body ++ ['*', '/'])) rest := by
  have cut : Lexeme.blockBody 1 (body ++ '*' :: '/' :: rest) = (body ++ ['*', '/'], rest) := by
    rw [Lexeme.blockBody_nested nested]
    simp [Lexeme.blockBody, Lexeme.onto]
  have comment := blockComment_sound (body ++ '*' :: '/' :: rest)
  rwa [cut] at comment

theorem IsComplete.exists_lexemes {text : Text} (complete : IsComplete text) (rest : Text) :
    ∃ skipped, lexemes (text ++ rest) = skipped ++ lexemes rest ∧
      Lexeme.joinedText skipped = text ∧ ∀ lexeme ∈ skipped, lexeme.number? = none := by
  cases complete with
  | @string quote isQuote' content =>
    have region : Lexeme.IsRegion
        ⟨.string, quote :: (Text.backslashed quote content ++ [quote])⟩ rest :=
      ⟨quote, _, isQuote', enclosed_backslashed quote content, .inl rfl⟩
    exact ⟨[_], region.lexemes_append, List.append_nil _, by simp [Lexeme.number?]⟩
  | @blockComment body nested =>
    have region : Lexeme.IsRegion ⟨.blockComment, '/' :: '*' :: (body ++ ['*', '/'])⟩ rest :=
      isBlockComment_of_isNested nested rest
    exact ⟨[_], region.lexemes_append, List.append_nil _, by simp [Lexeme.number?]⟩
  | @lineComment content oneLine =>
    have region : Lexeme.IsRegion ⟨.lineComment, '/' :: '/' :: content⟩ ('\n' :: rest) :=
      ⟨content, rfl, oneLine, .inr ⟨rest, rfl⟩⟩
    have cut : lexemes ('/' :: '/' :: (content ++ ['\n']) ++ rest) =
        ⟨.lineComment, '/' :: '/' :: content⟩ :: Lexeme.newline :: lexemes rest := by
      calc
        lexemes ('/' :: '/' :: (content ++ ['\n']) ++ rest) =
            lexemes ('/' :: '/' :: content ++ '\n' :: rest) := by simp
        _ = ⟨.lineComment, '/' :: '/' :: content⟩ :: lexemes ('\n' :: rest) :=
          region.lexemes_append
        _ = _ := congrArg _ (Lexeme.isRegion_newline rest).lexemes_append
    refine ⟨[_, _], cut, ?_, ?_⟩
    · simp [Lexeme.newline]
    · simp [Lexeme.number?, Lexeme.newline]

namespace Position

def behind (before : Text) (p : Position) : Position :=
  ⟨p.line + before.count '\n',
    if p.line = 1 then p.column + (before.rtakeWhile (· ≠ '\n')).length else p.column,
    p.offset + before.length⟩

variable {p : Position}

theorem start_after (before : Text) : start.after before = start.behind before := by
  induction before using List.reverseRecOn with
  | nil => rfl
  | append_singleton before c ih =>
    rw [after_append, ih, after_cons, after_nil]
    by_cases feed : c = '\n'
    · simp [behind, start, next, feed, add_assoc]
    · simp [behind, start, next, feed, add_assoc]

theorem next_behind (before : Text) (inside : 1 ≤ p.line) (c : Char) :
    (p.behind before).next c = (p.next c).behind before := by
  by_cases feed : c = '\n'
  · -- the next line is not the first, so its columns do not move
    have later : p.line + 1 ≠ 1 := by omega
    simp only [behind, next, if_pos feed, if_neg later, mk.injEq, true_and]
    omega
  · simp only [behind, next, if_neg feed, mk.injEq, true_and]
    constructor
    · split_ifs <;> ring
    · ring

theorem one_le_line_next (inside : 1 ≤ p.line) (c : Char) : 1 ≤ (p.next c).line := by
  unfold next
  split
  · exact le_trans inside (Int.le_add_one (le_refl p.line))
  · exact inside

theorem after_behind (before : Text) (inside : 1 ≤ p.line) (text : Text) :
    (p.behind before).after text = (p.after text).behind before := by
  apply after_along fun p => 1 ≤ p.line
  · intro p c inside
    exact one_le_line_next inside c
  · intro p c inside
    exact next_behind before inside c
  · exact inside

end Position

/-- Behind a complete string or comment a script goes on as if it began there: the tokens are those of
the rest, and only their places move. -/
theorem Token.ofSource_behind_complete {text : Text} (complete : IsComplete text) (rest : Text) :
    ofSource (text ++ rest) = (ofSource rest).map (relocated (Position.behind text)) := by
  obtain ⟨skipped, cut, whole, noNumber⟩ := complete.exists_lexemes rest
  have along : ∀ more, (Position.start.behind text).after more =
      (Position.start.after more).behind text := Position.after_behind text (le_refl 1)
  calc
    ofSource (text ++ rest) = ofLexemes .start (skipped ++ lexemes rest) ++
        [endAt (Position.start.after (text ++ rest))] := by rw [ofSource_eq, cut]
    _ = ofLexemes (Position.start.behind text) (lexemes rest) ++
        [endAt ((Position.start.behind text).after rest)] := by
      rw [ofLexemes_append, ofLexemes_eq_nil _ noNumber, whole, Position.after_append,
        Position.start_after, List.nil_append]
    _ = (ofLexemes .start (lexemes rest)).map (relocated (Position.behind text)) ++
        [relocated (Position.behind text) (endAt (Position.start.after rest))] := by
      rw [ofLexemes_relocated along, along]
      rfl
    _ = (ofSource rest).map (relocated (Position.behind text)) := by
      rw [ofSource_eq, List.map_append]
      rfl

theorem Token.ofSource_behind_nested_comment :
    IsComplete "/*1/**/\n*/".toList ∧ ofSource ("/*1/**/\n*/".toList ++ "2\n3".toList) =
      [⟨.integer, ['2'], ⟨⟨2, 3, 10⟩, ⟨2, 4, 11⟩⟩⟩, ⟨.integer, ['3'], ⟨⟨3, 1, 12⟩, ⟨3, 2, 13⟩⟩⟩,
        endAt ⟨3, 2, 13⟩] := by
  have nested : IsNested "1/**/\n".toList :=
    .plain (by decide) (.comment .nil (.plain (by decide) .nil))
  have complete : IsComplete "/*1/**/\n*/".toList := .blockComment nested
  refine ⟨complete, ?_⟩
  rw [Token.ofSource_behind_complete complete]
  decide +kernel

end ScriptLiterals
