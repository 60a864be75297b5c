import ScriptLiterals.Proofs.Source.Cutting
import ScriptLiterals.Proofs.Source.Place
import ScriptLiterals.Source.TokenStream

/-!
The tokens of a script are the numbers among its regions, each at the place where it stands.

Main statements: `ofSource_numbers_of_regions` for what the tokens are, `ofSource_exact` for where.
-/

namespace ScriptLiterals

def Lexeme.number? (lexeme : Lexeme) : Option (TokenKind × Text) :=
  match lexeme.kind with
  | .number kind => some (.ofNumber kind, lexeme.text)
  | _ => none

namespace Token

theorem ofSource_eq (source : Text) :
    ofSource source = ofLexemes .start (lexemes source) ++ [endAt (Position.start.after source)] := by
  simp [ofSource, TokenStream.readAll, TokenStream.ofSource]

theorem ofLexemes_map (p : Position) (cut : List Lexeme) :
    (ofLexemes p cut).map (fun token => (token.kind, token.text)) = cut.filterMap Lexeme.number? := by
  induction cut generalizing p with
  | nil => rfl
  | cons lexeme cut ih =>
    obtain ⟨kind, text⟩ := lexeme
    cases kind <;> simp [ofLexemes, Lexeme.number?, ih, List.filterMap_cons]

theorem mem_ofLexemes {p : Position} {cut : List Lexeme} {token : Token}
    (member : token ∈ ofLexemes p cut) :
    ∃ front lexeme back kind, cut = front ++ lexeme :: back ∧ lexeme.kind = .number kind ∧
      token = ⟨.ofNumber kind, lexeme.text, ⟨p.after (Lexeme.joinedText front),
        p.after (Lexeme.joinedText front ++ lexeme.text)⟩⟩ := by
  induction cut generalizing p with
  | nil => simp [ofLexemes] at member
  | cons first cut ih =>
    -- behind the first lexeme everything is the induction hypothesis with one more in front
    have later : token ∈ ofLexemes (p.after first.text) cut → ∃ front lexeme back kind,
        first :: cut = front ++ lexeme :: back ∧ lexeme.kind = .number kind ∧
          token = ⟨.ofNumber kind, lexeme.text, ⟨p.after (Lexeme.joinedText front),
            p.after (Lexeme.joinedText front ++ lexeme.text)⟩⟩ := by
      intro member
      obtain ⟨front, lexeme, back, kind, rfl, isNumber, rfl⟩ := ih member
      refine ⟨first :: front, lexeme, back, kind, rfl, isNumber, ?_⟩
      simp [Lexeme.joinedText, Position.after_append]
    cases isNumber : first.kind with
    | number kind =>
      simp only [ofLexemes, isNumber, List.mem_cons] at member
      rcases member with rfl | member
      · exact ⟨[], first, cut, kind, rfl, isNumber, rfl⟩
      · exact later member
    | _ =>
      simp only [ofLexemes, isNumber] at member
      exact later member

theorem kind_ne_endOfSource {p : Position} {cut : List Lexeme} {token : Token}
    (member : token ∈ ofLexemes p cut) : token.kind ≠ .endOfSource := by
  obtain ⟨front, lexeme, back, kind, -, -, rfl⟩ := mem_ofLexemes member
  cases kind <;> simp [TokenKind.ofNumber]

theorem ofLexemes_append (p : Position) (front back : List Lexeme) :
    ofLexemes p (front ++ back) =
      ofLexemes p front ++ ofLexemes (p.after (Lexeme.joinedText front)) back := by
  induction front generalizing p with
  | nil => rfl
  | cons lexeme front ih =>
    have joined : p.after (Lexeme.joinedText (lexeme :: front)) =
        (p.after lexeme.text).after (Lexeme.joinedText front) := Position.after_append ..
    rw [List.cons_append, ofLexemes, ofLexemes, ih, joined]
    split <;> simp

theorem ofLexemes_eq_nil (p : Position) {cut : List Lexeme}
    (skipped : ∀ lexeme ∈ cut, lexeme.number? = none) : ofLexemes p cut = [] := by
  have none : cut.filterMap Lexeme.number? = [] := List.filterMap_eq_nil_iff.mpr skipped
  rw [← ofLexemes_map p] at none
  exact List.map_eq_nil_iff.mp none

def relocated (place : Position → Position) (token : Token) : Token :=
  ⟨token.kind, token.text, ⟨place token.span.start, place token.span.stop⟩⟩

theorem ofLexemes_relocated {place : Position → Position} {p : Position}
    (along : ∀ text, (place p).after text = place (p.after text)) (cut : List Lexeme) :
    ofLexemes (place p) cut = (ofLexemes p cut).map (relocated place) := by
  induction cut generalizing p with
  | nil => rfl
  | cons lexeme cut ih =>
    have further : ∀ text, (place (p.after lexeme.text)).after text =
        place ((p.after lexeme.text).after text) := by
      intro text
      rw [← along, ← Position.after_append, ← Position.after_append, along]
    rw [ofLexemes, ofLexemes, along, ih further]
    split <;> rfl

/-- The tokens of a script are the numbers among its regions, in their order, and one end mark; the
regions are the only way in which the script can be cut. -/
theorem ofSource_numbers_of_regions (source : Text) :
    ∃ cut, IsCutInto source cut ∧ (∀ other, IsCutInto source other → other = cut) ∧
      Lexeme.joinedText cut = source ∧ (∀ lexeme ∈ cut, lexeme.text ≠ []) ∧
      (ofSource source).map (fun token => (token.kind, token.text)) =
        cut.filterMap Lexeme.number? ++ [(.endOfSource, [])] := by
  refine ⟨lexemes source, isCutInto_lexemes source, ?_, lexemes_flatten source, ?_, ?_⟩
  · intro other cut
    exact (isCutInto_iff source other).mp cut
  · intro lexeme member
    exact text_ne_nil_of_mem_lexemes member
  · rw [ofSource_eq, List.map_append, ofLexemes_map]
    rfl

/-- A token that is the part of a script between its two ends, on one line. -/
structure IsExact (token : Token) (source : Text) : Prop where
  slice : ∃ first last : Nat, token.span.start.IsAt source first ∧ token.span.stop.IsAt source last ∧
    first ≤ last ∧ token.text = (source.take last).drop first
  line_eq : token.span.stop.line = token.span.start.line
  column_eq : token.span.stop.column - token.span.start.column = token.text.length

theorem isAt_after (before rest : Text) :
    (Position.start.after before).IsAt (before ++ rest) before.length := by
  have placed := (Position.isAt_start (before ++ rest)).after (List.drop_zero (l := before ++ rest))
  rwa [Nat.zero_add] at placed

theorem isExact_of_oneLine {before text rest : Text} (kind : TokenKind) (oneLine : '\n' ∉ text) :
    IsExact ⟨kind, text, ⟨Position.start.after before, Position.start.after (before ++ text)⟩⟩
      (before ++ text ++ rest) where
  slice := by
    refine ⟨before.length, (before ++ text).length, ?_, isAt_after _ _, ?_, ?_⟩
    · rw [List.append_assoc]
      exact isAt_after _ _
    · simp
    · rw [List.take_left, List.drop_left]
  line_eq := by
    rw [Position.after_append, Position.after_eq_advance _ oneLine]
    rfl
  column_eq := by
    simp only [Position.after_append, Position.after_eq_advance _ oneLine, Position.advance]
    ring

theorem mem_ofLexemes_lexemes {source : Text} {token : Token}
    (member : token ∈ ofLexemes .start (lexemes source)) :
    ∃ before rest kind, source = before ++ token.text ++ rest ∧ IsNumber kind token.text rest ∧
      token = ⟨.ofNumber kind, token.text,
        ⟨Position.start.after before, Position.start.after (before ++ token.text)⟩⟩ := by
  obtain ⟨front, lexeme, back, kind, cut, isNumber, rfl⟩ := mem_ofLexemes member
  have isCut := isCutInto_lexemes source
  rw [cut] at isCut
  have region := isCut.isRegion
  refine ⟨Lexeme.joinedText front, Lexeme.joinedText back, kind, ?_, ?_, rfl⟩
  · rw [← isCut.joinedText_eq]
    simp [Lexeme.joinedText]
  · simpa [Lexeme.IsRegion, isNumber] using region

theorem isExact_endAt (source : Text) : (endAt (Position.start.after source)).IsExact source := by
  have exact := @isExact_of_oneLine source [] [] .endOfSource (by simp)
  simpa [endAt] using exact

theorem offset_le_of_mem {p : Position} {cut : List Lexeme} {token : Token}
    (member : token ∈ ofLexemes p cut) : p.offset ≤ token.span.start.offset := by
  obtain ⟨front, lexeme, back, kind, -, -, rfl⟩ := mem_ofLexemes member
  rw [Position.offset_after]
  omega

theorem ofLexemes_pairwise (p : Position) (cut : List Lexeme) :
    (ofLexemes p cut).Pairwise fun token later =>
      token.span.stop.offset ≤ later.span.start.offset := by
  induction cut generalizing p with
  | nil => exact .nil
  | cons lexeme cut ih =>
    cases isNumber : lexeme.kind with
    | number kind =>
      simp only [ofLexemes, isNumber]
      exact .cons (fun later member => offset_le_of_mem member) (ih _)
    | _ =>
      simp only [ofLexemes, isNumber]
      exact ih _

theorem isExact_of_mem {source : Text} {token : Token}
    (member : token ∈ ofLexemes .start (lexemes source)) : token.IsExact source := by
  obtain ⟨before, rest, kind, cut, number, placed⟩ := mem_ofLexemes_lexemes member
  have oneLine : '\n' ∉ token.text := by
    intro feed
    exact absurd (number.characters _ feed) (by decide)
  rw [placed, cut]
  exact isExact_of_oneLine _ oneLine

theorem text_ne_nil_of_mem {source : Text} {token : Token}
    (member : token ∈ ofLexemes .start (lexemes source)) : token.text ≠ [] := by
  obtain ⟨-, rest, kind, -, number, -⟩ := mem_ofLexemes_lexemes member
  have region : Lexeme.IsRegion ⟨.number kind, token.text⟩ rest := number
  exact region.text_ne_nil

theorem start_lt_stop_of_mem {source : Text} {token : Token}
    (member : token ∈ ofLexemes .start (lexemes source)) :
    token.span.start.offset < token.span.stop.offset := by
  have length := List.length_pos_iff.mpr (text_ne_nil_of_mem member)
  obtain ⟨before, -, kind, -, -, placed⟩ := mem_ofLexemes_lexemes member
  rw [placed]
  simp only [Position.offset_after, List.length_append]
  omega

/-- Every token is where its position says, and the numbers stand one behind the other before a single
end mark at the end. -/
theorem ofSource_exact (source : Text) :
    (∀ token ∈ ofSource source, token.IsExact source) ∧
    ∃ numbers last, ofSource source = numbers ++ [last] ∧
      (∀ token ∈ numbers, token.kind ≠ .endOfSource ∧ token.text ≠ []) ∧
      (numbers.Pairwise fun token later =>
        token.span.start.offset < later.span.start.offset ∧
          token.span.stop.offset ≤ later.span.start.offset) ∧
      last.kind = .endOfSource ∧ last.text = [] ∧ last.span.start = last.span.stop ∧
      last.span.start.offset = (source.length : Int) := by
  refine ⟨?_, ofLexemes .start (lexemes source), endAt (Position.start.after source),
    ofSource_eq source, ?_, ?_, rfl, rfl, rfl, ?_⟩
  · intro token member
    rw [ofSource_eq, List.mem_append, List.mem_singleton] at member
    rcases member with member | rfl
    · exact isExact_of_mem member
    · exact isExact_endAt source
  · intro token member
    exact ⟨kind_ne_endOfSource member, text_ne_nil_of_mem member⟩
  · refine (ofLexemes_pairwise .start (lexemes source)).imp_of_mem ?_
    intro token later member _ disjoint
    exact ⟨lt_of_lt_of_le (start_lt_stop_of_mem member) disjoint, disjoint⟩
  · simp [endAt, Position.offset_after, Position.start]

end Token
end ScriptLiterals
