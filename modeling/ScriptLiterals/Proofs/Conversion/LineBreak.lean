import ScriptLiterals.Proofs.Conversion.Place
import ScriptLiterals.Proofs.Source.LineBreak

/-!
A script with a line break is converted like the scripts before and behind the break: the tokens, the
values and the errors are those of the first and, further down, those of the second.

Main statement: `splits_at_newline`.
-/

namespace ScriptLiterals

def Position.moved (lines characters : Int) (p : Position) : Position :=
  ⟨p.line + lines, p.column, p.offset + characters⟩

def Span.moved (lines characters : Int) (span : Span) : Span :=
  ⟨span.start.moved lines characters, span.stop.moved lines characters⟩

def Token.moved (lines characters : Int) (token : Token) : Token :=
  ⟨token.kind, token.text, token.span.moved lines characters⟩

def LocatedError.moved (lines characters : Int) (source : Text) (e : LocatedError) : LocatedError :=
  ⟨e.error, e.span.moved lines characters, source⟩

variable {lines characters : Int}

namespace Position

theorem advance_moved (p : Position) (count : Int) :
    (p.moved lines characters).advance count = (p.advance count).moved lines characters := by
  simp only [moved, advance, mk.injEq, true_and]
  ring

theorem next_moved (p : Position) (c : Char) :
    (p.moved lines characters).next c = (p.next c).moved lines characters := by
  unfold next
  split <;> simp only [moved, mk.injEq, true_and] <;> omega

theorem after_moved (p : Position) (text : Text) :
    (p.moved lines characters).after text = (p.after text).moved lines characters := by
  apply after_along fun _ => True
  · intro p c inside
    exact inside
  · intro p c _
    exact next_moved p c
  · trivial

theorem start_after_newline (before : Text) :
    start.after (before ++ ['\n']) = start.moved (1 + before.count '\n') (before.length + 1) := by
  rw [after_append, after_cons, after_nil]
  simp only [next, if_pos, line_after, offset_after, start, moved, mk.injEq, true_and]
  omega

end Position

namespace Token

theorem ofLexemes_moved (p : Position) (cut : List Lexeme) :
    ofLexemes (p.moved lines characters) cut =
      (ofLexemes p cut).map (Token.moved lines characters) :=
  ofLexemes_relocated (fun text => Position.after_moved p text) cut

theorem ofLexemes_append_newline {first : Text} (second : Text)
    (closed : ∀ lexeme ∈ lexemes first, lexeme.IsClosed) :
    ofLexemes .start (lexemes (first ++ '\n' :: second)) = ofLexemes .start (lexemes first) ++
      (ofLexemes .start (lexemes second)).map
        (Token.moved (1 + first.count '\n') (first.length + 1)) := by
  have whole : Lexeme.joinedText (lexemes first) = first := lexemes_flatten first
  calc
    _ = ofLexemes .start (lexemes first ++ Lexeme.newline :: lexemes second) := by
      rw [lexemes_append_newline second closed]
    _ = ofLexemes .start (lexemes first) ++
        ofLexemes (Position.start.after first) (Lexeme.newline :: lexemes second) := by
      rw [ofLexemes_append, whole]
    _ = ofLexemes .start (lexemes first) ++
        ofLexemes (Position.start.after (first ++ ['\n'])) (lexemes second) := by
      rw [Position.after_append]
      rfl
    _ = _ := by rw [Position.start_after_newline, ofLexemes_moved]

theorem ofSource_append_newline {first : Text} (second : Text)
    (closed : ∀ lexeme ∈ lexemes first, lexeme.IsClosed) :
    ofSource (first ++ '\n' :: second) = (ofSource first).dropLast ++
      (ofSource second).map (Token.moved (1 + first.count '\n') (first.length + 1)) := by
  have stop : Position.start.after (first ++ '\n' :: second) =
      (Position.start.after second).moved (1 + first.count '\n') (first.length + 1) := by
    calc
      _ = (Position.start.after (first ++ ['\n'])).after second := by
        rw [← Position.after_append, List.append_assoc, List.singleton_append]
      _ = _ := by rw [Position.start_after_newline, Position.after_moved]
  rw [ofSource_eq, ofSource_eq, ofSource_eq, ofLexemes_append_newline second closed, stop,
    List.dropLast_concat, List.map_append, List.append_assoc]
  rfl

end Token

namespace Conversion

theorem spanIn_moved (e : LiteralError) (token : Token) :
    e.spanIn (token.moved lines characters) = (e.spanIn token).moved lines characters := by
  unfold LiteralError.spanIn
  cases e.fault with
  | overflow => rfl
  | _ => simp only [Token.moved, Span.moved, Position.advance_moved]

theorem value?_moved (options : Options) (token : Token) :
    value? options (token.moved lines characters) =
      (value? options token).map (Prod.map (Token.moved lines characters) id) := by
  unfold value?
  rw [show (token.moved lines characters).text = token.text from rfl]
  cases readLiteral token.text options <;> rfl

theorem error?_moved (source whole : Text) (options : Options) (token : Token) :
    error? whole options (token.moved lines characters) =
      (error? source options token).map (LocatedError.moved lines characters whole) := by
  unfold error?
  rw [show (token.moved lines characters).text = token.text from rfl]
  cases readLiteral token.text options with
  | ok value => rfl
  | error e => simp only [Option.map_some, LocatedError.moved, spanIn_moved]

theorem integers_append_newline {first : Text} (second : Text)
    (closed : ∀ lexeme ∈ lexemes first, lexeme.IsClosed) :
    integers (first ++ '\n' :: second) = integers first ++
      (integers second).map (Token.moved (1 + first.count '\n') (first.length + 1)) := by
  rw [integers_eq, integers_eq, integers_eq, Token.ofLexemes_append_newline second closed,
    List.filter_append, List.filter_map]
  rfl

/-- Two scripts with a line feed between them, of which the first leaves no string and no block
comment open, have the tokens, the values and the errors of the one and then those of the other,
moved behind the line feed. -/
theorem splits_at_newline {first : Text} (second : Text)
    (closed : ∀ lexeme ∈ lexemes first, lexeme.IsClosed) :
    let lines : Int := 1 + first.count '\n'
    let characters : Int := first.length + 1
    let whole := first ++ '\n' :: second
    Token.ofSource whole =
        (Token.ofSource first).dropLast ++ (Token.ofSource second).map (.moved lines characters) ∧
      ∀ options,
        (ofSource whole options).values = (ofSource first options).values ++
          (ofSource second options).values.map (fun (token, value) =>
            (token.moved lines characters, value)) ∧
        (ofSource whole options).errors =
          (ofSource first options).errors.map (fun e => { e with source := whole }) ++
            (ofSource second options).errors.map (.moved lines characters whole) := by
  intro lines characters whole
  refine ⟨Token.ofSource_append_newline second closed, ?_⟩
  intro options
  have integers := integers_append_newline second closed
  constructor
  · simp only [ofSource, whole, integers, List.filterMap_append, List.filterMap_map,
      List.map_filterMap]
    congr 2
    funext token
    exact value?_moved options token
  · simp only [ofSource, whole, integers, List.filterMap_append, List.filterMap_map,
      List.map_filterMap]
    congr 2
    · funext token
      exact error?_within first _ options token
    · funext token
      exact error?_moved second _ options token

theorem splits_at_newline_behind_comment :
    (∀ lexeme ∈ lexemes "/*/*1*/*/'2'0o9".toList, lexeme.IsClosed) ∧
      (ofSource ("/*/*1*/*/'2'0o9".toList ++ '\n' :: "3 0b2".toList)).values =
        [(⟨.integer, ['3'], ⟨⟨2, 1, 16⟩, ⟨2, 2, 17⟩⟩⟩, 3)] ∧
      (ofSource ("/*/*1*/*/'2'0o9".toList ++ '\n' :: "3 0b2".toList)).errors.map (·.span) =
        [⟨⟨1, 15, 14⟩, ⟨1, 16, 15⟩⟩, ⟨⟨2, 5, 20⟩, ⟨2, 6, 21⟩⟩] := by
  have regions : lexemes "/*/*1*/*/'2'0o9".toList =
      [⟨.blockComment, "/*/*1*/*/".toList⟩, ⟨.string, "'2'".toList⟩,
        ⟨.number .integer, "0o9".toList⟩] := by
    decide +kernel
  have closed : ∀ lexeme ∈ lexemes "/*/*1*/*/'2'0o9".toList, lexeme.IsClosed := by
    rw [regions]
    intro lexeme member
    simp only [List.mem_cons, List.not_mem_nil, or_false] at member
    rcases member with rfl | rfl | rfl
    · change CommentPart.depth (CommentPart.ofText "/*/*1*/*/".toList) = 0
      decide +kernel
    · exact ⟨'\x27', ['2'], .plain (by decide) (by decide) .nil, rfl⟩
    · trivial
  obtain ⟨-, converts⟩ := splits_at_newline "3 0b2".toList closed
  obtain ⟨values, errors⟩ := converts {}
  refine ⟨closed, ?_, ?_⟩
  · rw [values]
    decide +kernel
  · rw [errors]
    decide +kernel

end Conversion
end ScriptLiterals
