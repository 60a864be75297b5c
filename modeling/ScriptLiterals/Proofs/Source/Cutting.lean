import ScriptLiterals.Proofs.Source.Number

/-!
Cutting a script is exactly what the regions say: the first region is determined by what stands at
the front, and so is the list of all.

Main statements: `first_eq_iff` for one region, `isCutInto_iff` for a script.
-/

namespace ScriptLiterals

theorem lineComment_sound (source : Text) :
    IsLineComment ('/' :: '/' :: (Lexeme.run (· ≠ '\n') source).1)
      (Lexeme.run (· ≠ '\n') source).2 := by
  obtain ⟨inside, stops⟩ := isRun_run (fun c => decide (c ≠ '\n')) source
  refine ⟨_, rfl, ?_, ?_⟩
  · intro member
    simpa using inside '\n' member
  · cases rest : (Lexeme.run (· ≠ '\n') source).2 with
    | nil => exact .inl rfl
    | cons c more =>
      have stop := stops c (by rw [rest]; rfl)
      obtain rfl : c = '\n' := by simpa using stop
      exact .inr ⟨more, rfl⟩

theorem IsLineComment.isRun {text rest : Text} (comment : IsLineComment text rest) :
    IsRun (· ≠ '\n') text rest := by
  obtain ⟨content, rfl, inside, ending⟩ := comment
  constructor
  · intro c member
    rcases List.mem_cons.mp member with rfl | member
    · rfl
    rcases List.mem_cons.mp member with rfl | member
    · rfl
    have different : c ≠ '\n' := by
      rintro rfl
      exact inside member
    simpa using different
  · intro c head
    rcases ending with rfl | ⟨more, rfl⟩
    · simp at head
    · obtain rfl : '\n' = c := by simpa using head
      simp

open CommentPart in
theorem isBlockComment_iff (text rest : Text) :
    IsBlockComment text rest ↔ ∃ inside behind,
      ofText (text ++ rest) = opening :: (inside ++ behind) ∧
        text = '/' :: '*' :: inside.flatMap CommentPart.text ∧
        rest = behind.flatMap CommentPart.text ∧ Ends 1 inside behind := by
  constructor
  · rintro ⟨inside, behind, parts, rfl, rfl, head, before, now⟩
    cases inside with
    | nil => simp at head
    | cons part inside =>
      obtain rfl : part = opening := by simpa using head
      refine ⟨inside, behind, parts, rfl, rfl, ⟨?_, by simpa [change] using now⟩⟩
      intro n small
      simpa [change] using before (n + 1) (by omega) (by simpa using small)
  · rintro ⟨inside, behind, parts, rfl, rfl, before, now⟩
    refine ⟨opening :: inside, behind, parts, rfl, rfl, rfl, ?_, by simpa [change] using now⟩
    intro n positive small
    obtain ⟨n, rfl⟩ := Nat.exists_eq_succ_of_ne_zero positive.ne'
    simpa [change] using before n (by simpa using small)

theorem blockComment_sound (source : Text) :
    IsBlockComment ('/' :: '*' :: (Lexeme.blockBody 1 source).1) (Lexeme.blockBody 1 source).2 := by
  obtain ⟨inside, behind, parts, ends, cut⟩ := blockBody_sound 1 source
  have whole := Lexeme.blockBody_append 1 source
  rw [isBlockComment_iff]
  refine ⟨inside, behind, ?_, by rw [cut], by rw [cut], ends⟩
  simp [CommentPart.ofText, whole, parts]

theorem blockComment_complete {text rest : Text} (comment : IsBlockComment text rest) :
    ∃ content, text = '/' :: '*' :: content ∧
      Lexeme.blockBody 1 (content ++ rest) = (content, rest) := by
  obtain ⟨inside, behind, parts, rfl, rfl, ends⟩ := (isBlockComment_iff ..).mp comment
  simp only [List.cons_append, CommentPart.ofText, List.cons.injEq, true_and] at parts
  exact ⟨inside.flatMap CommentPart.text, rfl, blockBody_complete parts ends⟩

theorem string_sound {quote : Char} (isQuote' : isQuote quote = true) (source : Text) :
    IsString (quote :: (Lexeme.stringBody quote source).1) (Lexeme.stringBody quote source).2 := by
  obtain ⟨content, enclosed, closed | ⟨last, opened | opened⟩⟩ := stringBody_sound quote source
  · exact ⟨quote, content, isQuote', enclosed, .inl (by rw [closed])⟩
  · exact ⟨quote, content, isQuote', enclosed, .inr ⟨last, .inl (by rw [opened])⟩⟩
  · exact ⟨quote, content, isQuote', enclosed, .inr ⟨last, .inr (by rw [opened])⟩⟩

theorem string_complete {text rest : Text} (string : IsString text rest) :
    ∃ quote content, isQuote quote = true ∧ text = quote :: content ∧
      Lexeme.stringBody quote (content ++ rest) = (content, rest) := by
  obtain ⟨quote, content, isQuote', enclosed, ending⟩ := string
  have bare : quote ≠ '\\' := by
    rintro rfl
    exact absurd isQuote' (by decide)
  rcases ending with rfl | ⟨rfl, rfl | rfl⟩
  · refine ⟨quote, content ++ [quote], isQuote', rfl, ?_⟩
    simpa using stringBody_closed enclosed bare
  · exact ⟨quote, content, isQuote', rfl, by simpa using stringBody_open enclosed⟩
  · exact ⟨quote, content ++ ['\\'], isQuote', rfl,
      by simpa using stringBody_open_backslash enclosed bare⟩

namespace Lexeme

theorem first_blockComment (source : Text) :
    first '/' ('*' :: source) = (⟨.blockComment, '/' :: '*' :: (blockBody 1 source).1⟩,
      (blockBody 1 source).2) := rfl

theorem first_of_ne_slash {c : Char} (noSlash : c ≠ '/') (source : Text) :
    first c source =
      if isQuote c then ofCut .string (onto c (stringBody c source))
      else if startsIdentifier c then ofCut .identifier (run isWordChar (c :: source))
      else if isDigit c then ofCut (.number (number (c :: source)).1) (number (c :: source)).2
      else (⟨.other, [c]⟩, source) := by
  simp [first, noSlash]

theorem first_string {quote : Char} (isQuote' : isQuote quote = true) (source : Text) :
    first quote source = (⟨.string, quote :: (stringBody quote source).1⟩,
      (stringBody quote source).2) := by
  rw [first_of_ne_slash (ne_slash_of_isQuote isQuote'), if_pos isQuote']
  rfl

theorem first_word {c : Char} (wordChar : isWordChar c = true) (source : Text) :
    first c source =
      if startsIdentifier c then ofCut .identifier (run isWordChar (c :: source))
      else ofCut (.number (number (c :: source)).1) (number (c :: source)).2 := by
  rw [first_of_ne_slash (ne_slash_of_isWordChar wordChar),
    if_neg (not_isQuote_of_isWordChar wordChar)]
  split_ifs with starts digit
  · rfl
  · rfl
  · rcases (isWordChar_iff c).mp wordChar with digit' | starts'
    · exact absurd digit' digit
    · exact absurd starts' starts

theorem first_other {c : Char} {source : Text} (noQuote : ¬ isQuote c = true)
    (noWord : ¬ isWordChar c = true)
    (noComment : ¬ (c = '/' ∧ (source.head? = some '/' ∨ source.head? = some '*'))) :
    first c source = (⟨.other, [c]⟩, source) := by
  rw [isWordChar_iff, not_or] at noWord
  by_cases slash : c = '/'
  · simp only [slash, true_and, not_or] at noComment
    simp [first, slash, noComment.1, noComment.2, isQuote, startsIdentifier, isDigit]
  · rw [first_of_ne_slash slash, if_neg noQuote, if_neg noWord.2, if_neg noWord.1]

theorem first_sound (c : Char) (source : Text) :
    (first c source).1.IsRegion (first c source).2 := by
  by_cases quote : isQuote c = true
  · rw [first_string quote]
    exact string_sound quote source
  by_cases word : isWordChar c = true
  · rw [first_word word]
    split_ifs with starts
    · have isRun := isRun_run isWordChar (c :: source)
      refine ⟨c, source.takeWhile isWordChar, ?_, starts, isRun⟩
      simp [ofCut, run, word]
    · have digit := ((isWordChar_iff c).mp word).resolve_right starts
      exact ((number_eq_iff digit _ _ _).mp rfl).2
  by_cases comment : c = '/' ∧ (source.head? = some '/' ∨ source.head? = some '*')
  · obtain ⟨rfl, line | block⟩ := comment
    · obtain ⟨inner, rfl⟩ := List.head?_eq_some_iff.mp line
      exact lineComment_sound inner
    · obtain ⟨inner, rfl⟩ := List.head?_eq_some_iff.mp block
      exact blockComment_sound inner
  · rw [first_other quote word comment]
    exact ⟨c, rfl, quote, word, comment⟩

theorem first_complete {lexeme : Lexeme} {c : Char} {source rest : Text}
    (region : lexeme.IsRegion rest) (front : lexeme.text ++ rest = c :: source) :
    first c source = (lexeme, rest) := by
  obtain ⟨kind, text⟩ := lexeme
  cases kind with
  | lineComment =>
    have cut := run_complete (IsLineComment.isRun region)
    obtain ⟨content, rfl, -⟩ : IsLineComment text rest := region
    obtain ⟨rfl, rfl⟩ := List.cons.inj front
    exact congrArg (ofCut .lineComment) cut
  | blockComment =>
    obtain ⟨content, rfl, cut⟩ := blockComment_complete region
    obtain ⟨rfl, rfl⟩ := List.cons.inj front
    exact (first_blockComment (content ++ rest)).trans (by rw [cut])
  | string =>
    obtain ⟨quote, content, isQuote', rfl, cut⟩ := string_complete region
    obtain ⟨rfl, rfl⟩ := List.cons.inj front
    exact (first_string isQuote' (content ++ rest)).trans (by rw [cut])
  | identifier =>
    obtain ⟨d, more, rfl, starts, isRun⟩ : IsIdentifier text rest := region
    obtain ⟨rfl, rfl⟩ := List.cons.inj front
    rw [first_word (isWordChar_of_startsIdentifier starts), if_pos starts]
    exact congrArg (ofCut .identifier) (run_complete isRun)
  | number kind =>
    obtain ⟨d, more, tail, rfl, digit, isRun, numberEnd⟩ : IsNumber kind text rest := region
    obtain ⟨rfl, rfl⟩ := List.cons.inj front
    have cut := (number_eq_iff digit kind _ rest).mpr ⟨rfl, d, more, tail, rfl, digit, isRun, numberEnd⟩
    have notStarts : ¬ startsIdentifier d = true := by
      simp [not_startsIdentifier_of_isDigit digit]
    rw [first_word (isWordChar_of_isDigit digit), if_neg notStarts]
    exact congrArg (fun cut => ofCut (.number cut.1) cut.2) cut
  | other =>
    obtain ⟨d, rfl, noQuote, noWord, noComment⟩ : IsOther text rest := region
    obtain ⟨rfl, rfl⟩ : d = c ∧ rest = source := by simpa using front
    exact first_other noQuote noWord noComment

theorem first_eq_iff (c : Char) (source : Text) (lexeme : Lexeme) (rest : Text) :
    first c source = (lexeme, rest) ↔ lexeme.IsRegion rest ∧ lexeme.text ++ rest = c :: source := by
  constructor
  · intro cut
    have region := first_sound c source
    have whole := first_append c source
    rw [cut] at region whole
    exact ⟨region, whole⟩
  · rintro ⟨region, front⟩
    exact first_complete region front

theorem IsRegion.text_ne_nil {lexeme : Lexeme} {rest : Text} (region : lexeme.IsRegion rest) :
    lexeme.text ≠ [] := by
  obtain ⟨kind, text⟩ := lexeme
  cases kind with
  | lineComment =>
    obtain ⟨content, rfl, -⟩ : IsLineComment text rest := region
    simp
  | blockComment =>
    obtain ⟨content, rfl, -⟩ := blockComment_complete region
    simp
  | string =>
    obtain ⟨quote, content, -, rfl, -⟩ := string_complete region
    simp
  | identifier =>
    obtain ⟨d, more, rfl, -⟩ : IsIdentifier text rest := region
    simp
  | number kind =>
    obtain ⟨d, more, tail, rfl, -⟩ : IsNumber kind text rest := region
    simp
  | other =>
    obtain ⟨d, rfl, -⟩ : IsOther text rest := region
    simp

end Lexeme

theorem isCutInto_lexemes (source : Text) : IsCutInto source (lexemes source) := by
  fun_induction lexemes source with
  | case1 => exact .nil
  | case2 c source ih =>
    have cut := IsCutInto.cons (Lexeme.first_sound c source) ih
    rwa [Lexeme.first_append] at cut

/-- There is one way to cut a script into regions. -/
theorem isCutInto_iff (source : Text) (cut : List Lexeme) :
    IsCutInto source cut ↔ cut = lexemes source := by
  constructor
  · intro isCut
    induction isCut with
    | nil => rw [lexemes]
    | @cons lexeme rest more region isCut ih =>
      obtain ⟨c, inner, text⟩ := List.exists_cons_of_ne_nil region.text_ne_nil
      have front : lexeme.text ++ rest = c :: (inner ++ rest) := by rw [text, List.cons_append]
      rw [front, lexemes, Lexeme.first_complete region front, ih]
  · rintro rfl
    exact isCutInto_lexemes source

namespace Lexeme

theorem IsRegion.lexemes_append {lexeme : Lexeme} {rest : Text} (region : lexeme.IsRegion rest) :
    lexemes (lexeme.text ++ rest) = lexeme :: lexemes rest := by
  symm
  apply (isCutInto_iff ..).mp
  exact .cons region (isCutInto_lexemes rest)

@[simp]
theorem joinedText_nil : joinedText [] = [] := rfl

@[simp]
theorem joinedText_cons (lexeme : Lexeme) (cut : List Lexeme) :
    joinedText (lexeme :: cut) = lexeme.text ++ joinedText cut := rfl

end Lexeme

theorem IsCutInto.joinedText_eq {source : Text} {cut : List Lexeme} (isCut : IsCutInto source cut) :
    Lexeme.joinedText cut = source := by
  induction isCut with
  | nil => rfl
  | cons region isCut ih => rw [← ih]; rfl

theorem IsCutInto.isRegion {source : Text} {front back : List Lexeme} {lexeme : Lexeme}
    (isCut : IsCutInto source (front ++ lexeme :: back)) :
    lexeme.IsRegion (Lexeme.joinedText back) := by
  induction front generalizing source with
  | nil =>
    cases isCut with
    | cons region isCut =>
      rw [isCut.joinedText_eq]
      exact region
  | cons first front ih =>
    cases isCut with
    | cons _ isCut => exact ih isCut

end ScriptLiterals
