import ScriptLiterals.Proofs.Source.Tokens
import ScriptLiterals.Proofs.Text.Case

/-!
Cutting a script in lower case. No character becomes another kind of character with the case of its
letter, so the regions are those of the script, in lower case.

Main statement: `Token.ofSource_lowered`.
-/

namespace ScriptLiterals

open Text (lowered)

@[simp]
theorem Radix.detect_lowered (text : Text) : detect (lowered text) = detect text := by
  match text with
  | [] => rfl
  | [c] => simp [detect]
  | c :: d :: rest =>
    by_cases zero : c = '0'
    · subst c
      change detect ('0' :: d.toLower :: lowered rest) = detect ('0' :: d :: rest)
      simp only [detect, ofMark?_toLower]
    · have zero' : c.toLower ≠ '0' := by simpa using zero
      simp [detect, zero, zero']

namespace Lexeme

def lowered (lexeme : Lexeme) : Lexeme := ⟨lexeme.kind, Text.lowered lexeme.text⟩

def Cut.lowered (cut : Cut) : Cut := (Text.lowered cut.1, Text.lowered cut.2)

@[simp]
theorem onto_lowered (c : Char) (cut : Cut) :
    onto c.toLower (Cut.lowered cut) = Cut.lowered (onto c cut) := rfl

theorem takeWhile_lowered {p : Char → Bool} (caseless : ∀ c : Char, p c.toLower = p c)
    (source : Text) : (Text.lowered source).takeWhile p = Text.lowered (source.takeWhile p) := by
  have same : p ∘ Char.toLower = p := funext caseless
  rw [Text.lowered, List.takeWhile_map, same, Text.lowered]

theorem dropWhile_lowered {p : Char → Bool} (caseless : ∀ c : Char, p c.toLower = p c)
    (source : Text) : (Text.lowered source).dropWhile p = Text.lowered (source.dropWhile p) := by
  have same : p ∘ Char.toLower = p := funext caseless
  rw [Text.lowered, List.dropWhile_map, same, Text.lowered]

theorem run_lowered {p : Char → Bool} (caseless : ∀ c : Char, p c.toLower = p c) (source : Text) :
    run p (Text.lowered source) = Cut.lowered (run p source) := by
  rw [run, takeWhile_lowered caseless, dropWhile_lowered caseless]
  rfl

theorem blockBody_lowered (depth : Nat) (source : Text) :
    blockBody depth (Text.lowered source) = Cut.lowered (blockBody depth source) := by
  fun_induction blockBody depth source with
  | case1 source =>
    rw [blockBody]
    rfl
  | case2 depth => rfl
  | case3 depth rest ih =>
    change blockBody (depth + 1) ('/' :: '*' :: Text.lowered rest) = _
    rw [blockBody, ih]
    rfl
  | case4 depth rest ih =>
    change blockBody (depth + 1) ('*' :: '/' :: Text.lowered rest) = _
    rw [blockBody, ih]
    rfl
  | case5 depth c rest notOpening notClosing ih =>
    rw [Text.lowered_cons, blockBody, ih, onto_lowered]
    -- no mark has letters, so none can appear in lower case
    · intro tail slash star
      rcases Text.exists_cons_of_lowered (by decide) star with ⟨more, same, -⟩
      exact notOpening more ((toLower_eq_iff (by decide) c).mp slash) same
    · intro tail star slash
      rcases Text.exists_cons_of_lowered (by decide) slash with ⟨more, same, -⟩
      exact notClosing more ((toLower_eq_iff (by decide) c).mp star) same

theorem stringBody_lowered {quote : Char} (plain : quote.isAlpha = false) (source : Text) :
    stringBody quote (Text.lowered source) = Cut.lowered (stringBody quote source) := by
  fun_induction stringBody quote source with
  | case1 => rfl
  | case2 c rest ih =>
    change stringBody quote ('\\' :: c.toLower :: Text.lowered rest) = _
    rw [stringBody, ih]
    rfl
  | case3 rest bare =>
    have kept : quote.toLower = quote := (toLower_eq_iff plain quote).mpr rfl
    rw [Text.lowered_cons, kept, stringBody, if_pos rfl]
    · simp [Cut.lowered, kept]
    · intro d tail slash same
      cases rest with
      | nil => contradiction
      | cons e more => exact bare e more slash rfl
  | case4 c rest bare inner ih =>
    have inner' : ¬ c.toLower = quote := mt (toLower_eq_iff plain c).mp inner
    rw [Text.lowered_cons, stringBody, if_neg inner', ih, onto_lowered]
    intro d tail slash same
    cases rest with
    | nil => contradiction
    | cons e more => exact bare e more ((toLower_eq_iff (by decide) c).mp slash) rfl

@[simp]
theorem startsWithDigit_lowered (source : Text) :
    startsWithDigit (Text.lowered source) = startsWithDigit source := by
  cases source <;> simp [startsWithDigit]

theorem fraction?_lowered (source : Text) :
    fraction? (Text.lowered source) = (fraction? source).map Cut.lowered := by
  cases source with
  | nil => rfl
  | cons c rest =>
    by_cases point : c = '.'
    · subst c
      change fraction? ('.' :: Text.lowered rest) = _
      simp only [fraction?, startsWithDigit_lowered, run_lowered isWordChar_toLower]
      split_ifs
      · rfl
      · rfl
    · have point' : c.toLower ≠ '.' := by simpa using point
      simp [fraction?, point, point']

theorem signedExponent?_lowered (text source : Text) :
    signedExponent? (Text.lowered text) (Text.lowered source) =
      (signedExponent? text source).map Cut.lowered := by
  cases source with
  | nil => rfl
  | cons c rest =>
    have last : (Text.lowered text).getLast?.any isExponentMark =
        text.getLast?.any isExponentMark := by
      rw [Text.lowered, List.getLast?_map]
      cases text.getLast? <;> simp
    simp only [Text.lowered_cons, signedExponent?, last, isSign_toLower, startsWithDigit_lowered]
    split_ifs
    · rw [run_lowered isWordChar_toLower]
      rfl
    · rfl

@[simp]
theorem hasExponent_lowered (text : Text) : hasExponent (Text.lowered text) = hasExponent text := by
  unfold hasExponent
  rw [dropWhile_lowered isDecimalChar_toLower]
  cases text.dropWhile isDecimalChar with
  | nil => rfl
  | cons c rest =>
    have separator : ∀ d : Char, decide (d.toLower = '_') = decide (d = '_') := by simp
    have digits := dropWhile_lowered (p := fun d => decide (d = '_')) separator rest
    simp only [Text.lowered_cons, digits, isExponentMark_toLower, startsWithDigit_lowered]
    congr 1
    simp only [Text.lowered, List.all_map]
    congr 1
    exact funext isDecimalChar_toLower

@[simp]
theorem endsAtExponentMark_lowered (text : Text) :
    endsAtExponentMark (Text.lowered text) = endsAtExponentMark text := by
  unfold endsAtExponentMark
  rw [dropWhile_lowered isDecimalChar_toLower]
  rcases text.dropWhile isDecimalChar with _ | ⟨c, _ | ⟨d, rest⟩⟩
  · rfl
  · exact isExponentMark_toLower c
  · rfl

theorem numberFrom_lowered (head rest : Text) :
    numberFrom (Text.lowered head) (Text.lowered rest) =
      ((numberFrom head rest).1, Cut.lowered (numberFrom head rest).2) := by
  simp only [numberFrom, Radix.detect_lowered, fraction?_lowered, hasExponent_lowered,
    endsAtExponentMark_lowered]
  by_cases mark : (Radix.detect head).1 ≠ .decimal
  · rw [if_pos mark, if_pos mark]
    cases fraction? rest with
    | none => rfl
    | some cut => simp [Cut.lowered]
  · rw [if_neg mark, if_neg mark]
    cases fraction? rest with
    | some cut =>
      have exponent := signedExponent?_lowered (head ++ cut.1) cut.2
      rw [Text.lowered_append] at exponent
      simp only [Option.map_some, Cut.lowered, exponent]
      cases signedExponent? (head ++ cut.1) cut.2 with
      | none => simp
      | some more => simp [Cut.lowered]
    | none =>
      simp only [Option.map_none, signedExponent?_lowered]
      by_cases whole : hasExponent head = true
      · simp [whole, Cut.lowered]
      · by_cases ends : endsAtExponentMark head = true
        · cases signedExponent? head rest <;> simp [whole, ends, Cut.lowered]
        · simp [whole, ends, Cut.lowered]

theorem number_lowered (source : Text) :
    number (Text.lowered source) = ((number source).1, Cut.lowered (number source).2) := by
  rw [number, takeWhile_lowered isWordChar_toLower, dropWhile_lowered isWordChar_toLower,
    numberFrom_lowered]
  rfl

theorem head?_lowered_eq_some_iff {d : Char} (plain : d.isAlpha = false) (source : Text) :
    (Text.lowered source).head? = some d ↔ source.head? = some d := by
  cases source <;> simp [plain]

theorem first_lowered (c : Char) (rest : Text) :
    first c.toLower (Text.lowered rest) =
      ((first c rest).1.lowered, Text.lowered (first c rest).2) := by
  have slash := toLower_eq_iff (d := '/') (by decide) c
  have line := head?_lowered_eq_some_iff (d := '/') (by decide) rest
  have star := head?_lowered_eq_some_iff (d := '*') (by decide) rest
  have feed : ∀ d : Char, decide (d.toLower ≠ '\n') = decide (d ≠ '\n') := by simp
  simp only [first, slash, line, star, isQuote_toLower, startsIdentifier_toLower, isDigit_toLower,
    ← Text.lowered_cons]
  split_ifs with lineComment blockComment quote identifier digit
  · rw [run_lowered (p := fun d => decide (d ≠ '\n')) feed]
    rfl
  · have body : (Text.lowered rest).tail = Text.lowered rest.tail := List.map_tail.symm
    rw [body, blockBody_lowered]
    rfl
  · have plain := isAlpha_of_isQuote quote
    have kept : c.toLower = c := (toLower_eq_iff plain c).mpr rfl
    rw [kept, stringBody_lowered plain]
    simp [ofCut, onto, Cut.lowered, Lexeme.lowered, kept]
  · rw [run_lowered isWordChar_toLower]
    rfl
  · rw [number_lowered]
    rfl
  · rfl

end Lexeme

theorem lexemes_lowered (source : Text) :
    lexemes (lowered source) = (lexemes source).map Lexeme.lowered := by
  fun_induction lexemes source with
  | case1 => simp [lexemes]
  | case2 c rest ih =>
    rw [Text.lowered_cons, lexemes, Lexeme.first_lowered, ih, List.map_cons]

theorem Position.after_lowered (p : Position) (text : Text) :
    p.after (lowered text) = p.after text := by
  have next : ∀ (q : Position) (c : Char), q.next c.toLower = q.next c := by
    intro q c
    simp [Position.next]
  simp only [Position.after, lowered, List.foldl_map, next]

namespace Token

def lowered (token : Token) : Token := { token with text := Text.lowered token.text }

theorem ofLexemes_lowered (p : Position) (lexemes : List Lexeme) :
    ofLexemes p (lexemes.map Lexeme.lowered) = (ofLexemes p lexemes).map lowered := by
  induction lexemes generalizing p with
  | nil => rfl
  | cons lexeme more ih =>
    rcases lexeme with ⟨kind, text⟩
    cases kind <;> simp [ofLexemes, Lexeme.lowered, Position.after_lowered, ih, lowered]

theorem ofSource_lowered (source : Text) :
    ofSource (Text.lowered source) = (ofSource source).map lowered := by
  rw [ofSource_eq, ofSource_eq, lexemes_lowered, ofLexemes_lowered, Position.after_lowered,
    List.map_append]
  rfl

end Token
end ScriptLiterals
