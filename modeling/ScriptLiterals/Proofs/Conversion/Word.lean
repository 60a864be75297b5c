import ScriptLiterals.Proofs.Conversion.Place
import ScriptLiterals.Proofs.Literal.Acceptance
import ScriptLiterals.Proofs.Source.Tokens

/-!
A word that begins with a digit, read as a literal and as a script. As a script it is one number, and
it is converted exactly as the literal is read. What is a float is no literal.

Main statement: `word_is_one_number`.
-/

namespace ScriptLiterals

variable {text rest : Text} {kind : NumberKind} {token : Token} {options : Options} {value : Int}

def IsDigitWord (text : Text) : Prop :=
  ∃ digit more, text = digit :: more ∧ isDigit digit = true ∧ ∀ c ∈ more, isWordChar c = true

theorem isDigitWord_of_head? (starts : ∃ c ∈ text.head?, isDigit c = true)
    (word : ∀ c ∈ text, isWordChar c = true) : IsDigitWord text := by
  obtain ⟨digit, head, isDigit'⟩ := starts
  obtain ⟨more, rfl⟩ := List.head?_eq_some_iff.mp head
  exact ⟨digit, more, rfl, isDigit', fun c member => word c (List.mem_cons_of_mem _ member)⟩

theorem not_isDigit_of_isExponentMark {c : Char} (mark : isExponentMark c = true) :
    ¬ Radix.decimal.IsDigit c := by
  simp only [isExponentMark, Bool.or_eq_true, decide_eq_true_eq] at mark
  rcases mark with rfl | rfl <;> decide

theorem marked_of_not_hasMark (noMark : ¬ HasMark text) : Marked text .decimal text :=
  .plain fun radix letter marks more same => noMark ⟨radix, letter, marks, more, same⟩

theorem not_hasExponent_of_readLiteral (noMark : ¬ HasMark text)
    (read : readLiteral text options = .ok value) : ¬ HasExponent text := by
  rintro ⟨mantissa, mark, separators, digit, more, rfl, -, -, isMark, -⟩
  have clean := (region_of_readLiteral_eq_ok (marked_of_not_hasMark noMark) read).2.1
  rcases clean.characters mark (by simp) with rfl | isDigit'
  · exact absurd isMark (by decide)
  · exact not_isDigit_of_isExponentMark isMark isDigit'

theorem IsFraction.point_mem {fraction : Text} (isFraction : IsFraction fraction rest) :
    '.' ∈ fraction := by
  obtain ⟨digit, more, rfl, -⟩ := isFraction
  exact List.mem_cons_self

theorem IsSignedExponent.sign_mem {exponent : Text} (isExponent : IsSignedExponent exponent rest) :
    ∃ sign ∈ exponent, isSign sign = true := by
  obtain ⟨sign, digit, more, rfl, isSign', -⟩ := isExponent
  exact ⟨sign, List.mem_cons_self, isSign'⟩

theorem not_isWordChar_of_isSign {c : Char} (sign : isSign c = true) : isWordChar c = false := by
  simp only [isSign, Bool.or_eq_true, decide_eq_true_eq] at sign
  rcases sign with rfl | rfl <;> decide

theorem IsNumber.float_cases (number : IsNumber .float text rest) :
    (¬ HasMark text ∧ HasExponent text) ∨ ∃ c ∈ text, isWordChar c = false := by
  obtain ⟨digit, more, tail, rfl, -, -, numberEnd⟩ := number
  cases numberEnd with
  | fraction _ isFraction _ =>
    exact .inr ⟨'.', List.mem_append_right _ isFraction.point_mem, by decide⟩
  | fractionExponent _ isFraction _ _ =>
    exact .inr ⟨'.', List.mem_append_right _ (List.mem_append_left _ isFraction.point_mem),
      by decide⟩
  | exponent noMark _ hasExponent =>
    rw [List.append_nil]
    exact .inl ⟨noMark, hasExponent⟩
  | signedExponent _ _ isExponent =>
    obtain ⟨sign, member, isSign'⟩ := isExponent.sign_mem
    exact .inr ⟨sign, List.mem_append_right _ member, not_isWordChar_of_isSign isSign'⟩

theorem IsNumber.float_not_read (number : IsNumber .float text rest) :
    readLiteral text options ≠ .ok value := by
  intro read
  rcases number.float_cases with ⟨noMark, hasExponent⟩ | ⟨c, member, noWord⟩
  · exact not_hasExponent_of_readLiteral noMark read hasExponent
  · rw [isWordChar_of_readLiteral read c member] at noWord
    contradiction

theorem not_beginsFraction_nil : ¬ BeginsFraction [] := by
  rintro ⟨_, _, _, same⟩
  contradiction

theorem not_beginsSignedExponent_nil : ¬ BeginsSignedExponent [] := by
  rintro ⟨_, _, _, _, _, same⟩
  contradiction

theorem IsDigitWord.exists_isNumber (word : IsDigitWord text) :
    ∃ kind, IsNumber kind text [] ∧ (kind = .float ↔ ¬ HasMark text ∧ HasExponent text) := by
  obtain ⟨digit, more, rfl, isDigit', inside⟩ := word
  have number : ∀ {kind}, NumberEnd (digit :: more) kind [] [] → IsNumber kind (digit :: more) [] := by
    intro kind numberEnd
    refine ⟨digit, more, [], (List.append_nil _).symm, isDigit', ⟨?_, by simp⟩, numberEnd⟩
    intro c member
    rcases List.mem_cons.mp member with rfl | member
    · exact isWordChar_of_isDigit isDigit'
    · exact inside c member
  by_cases mark : HasMark (digit :: more)
  · exact ⟨.integer, number (.marked mark not_beginsFraction_nil), by simp [mark]⟩
  · by_cases hasExponent : HasExponent (digit :: more)
    · exact ⟨.float, number (.exponent mark not_beginsFraction_nil hasExponent),
        by simp [mark, hasExponent]⟩
    · refine ⟨.integer, number (.plain mark not_beginsFraction_nil hasExponent ?_),
        by simp [hasExponent]⟩
      exact fun both => not_beginsSignedExponent_nil both.2

theorem Token.ofSource_of_isNumber (number : IsNumber kind text []) :
    ofSource text = [⟨.ofNumber kind, text, ⟨.start, Position.start.advance text.length⟩⟩,
      endAt (Position.start.advance text.length)] := by
  have region : Lexeme.IsRegion ⟨.number kind, text⟩ [] := number
  have cut : lexemes text = [⟨.number kind, text⟩] := by
    have front := region.lexemes_append
    rwa [List.append_nil, lexemes] at front
  have oneLine := newline_not_mem_of_isNumberChar number.characters
  rw [ofSource_eq, cut, Position.after_eq_advance _ oneLine]
  simp [ofLexemes, Position.after_eq_advance _ oneLine]

namespace Conversion

theorem integers_of_isNumber (number : IsNumber .integer text []) :
    integers text = [⟨.integer, text, ⟨.start, Position.start.advance text.length⟩⟩] := by
  simp [integers, Token.ofSource_of_isNumber number, TokenKind.ofNumber, Token.endAt]

theorem ofSource_of_readLiteral (one : integers text = [token]) (same : token.text = text)
    (read : readLiteral text options = .ok value) : ofSource text options = ⟨[(token, value)], []⟩ := by
  simp [ofSource, one, value?, error?, same, read]

theorem ofSource_of_readLiteral_error {e : LiteralError} (one : integers text = [token])
    (same : token.text = text) (read : readLiteral text options = .error e) :
    ofSource text options = ⟨[], [⟨e, e.spanIn token, text⟩]⟩ := by
  simp [ofSource, one, value?, error?, same, read]

/-- As a script a word that begins with a digit is one number, which is a float if it has an exponent
and no mark. As an integer it is converted to what it is read as, and refused with the same error. No
float of any script is read as a literal, so a literal that begins with a digit is one integer. -/
theorem word_is_one_number (word : IsDigitWord text) :
    (∃ token, Token.ofSource text = [token, Token.endAt (Position.start.advance text.length)] ∧
      token.text = text ∧ token.span = ⟨.start, Position.start.advance text.length⟩ ∧
      (token.kind = .integer ∨ token.kind = .float) ∧
      (token.kind = .float ↔ ¬ HasMark text ∧ HasExponent text) ∧
      (token.kind = .integer → ∀ options,
        (∀ value, readLiteral text options = .ok value →
          ofSource text options = ⟨[(token, value)], []⟩) ∧
        ∀ e, readLiteral text options = .error e →
          ∃ span, ofSource text options = ⟨[], [⟨e, span, text⟩]⟩)) ∧
    (∀ source, ∀ token ∈ Token.ofSource source, token.kind = .float →
      ∀ options, ∃ e, readLiteral token.text options = .error e) ∧
    ∀ literal options value, (∃ c ∈ literal.head?, isDigit c = true) →
      readLiteral literal options = .ok value →
      Token.ofSource literal =
        [⟨.integer, literal, ⟨.start, Position.start.advance literal.length⟩⟩,
          Token.endAt (Position.start.advance literal.length)] := by
  refine ⟨?_, ?_, ?_⟩
  · obtain ⟨kind, number, isFloat⟩ := word.exists_isNumber
    have tokens := Token.ofSource_of_isNumber number
    refine ⟨_, tokens, rfl, rfl, by cases kind <;> simp [TokenKind.ofNumber], ?_, ?_⟩
    · rw [← isFloat]
      cases kind <;> simp [TokenKind.ofNumber]
    · intro isInteger options
      obtain rfl : kind = .integer := by
        cases kind with
        | integer => rfl
        | float => contradiction
      have one := integers_of_isNumber number
      exact ⟨fun value read => ofSource_of_readLiteral one rfl read,
        fun e read => ⟨_, ofSource_of_readLiteral_error one rfl read⟩⟩
  · intro source token member isFloat options
    rw [Token.ofSource_eq, List.mem_append, List.mem_singleton] at member
    rcases member with member | rfl
    · obtain ⟨before, rest, kind, -, number, placed⟩ := Token.mem_ofLexemes_lexemes member
      obtain rfl : kind = .float := by
        rw [placed] at isFloat
        cases kind with
        | integer => contradiction
        | float => rfl
      cases read : readLiteral token.text options with
      | ok value => exact absurd read number.float_not_read
      | error e => exact ⟨e, rfl⟩
    · contradiction
  -- an accepted literal is a word, and no float is accepted
  · intro literal options value starts read
    have word := isDigitWord_of_head? starts (isWordChar_of_readLiteral read)
    obtain ⟨kind, number, -⟩ := word.exists_isNumber
    cases kind with
    | integer => exact Token.ofSource_of_isNumber number
    | float => exact absurd read number.float_not_read

theorem marked_word_is_one_integer :
    IsDigitWord "0x1e_5".toList ∧ ∃ token, (ofSource "0x1e_5".toList).values = [(token, 485)] ∧
      Token.ofSource "0x1e_5".toList = [token, Token.endAt ⟨1, 7, 6⟩] := by
  have word : IsDigitWord "0x1e_5".toList := ⟨'0', "x1e_5".toList, rfl, by decide,
    List.all_eq_true.mp (by decide)⟩
  obtain ⟨⟨token, tokens, -, -, kinds, isFloat, converts⟩, -⟩ := word_is_one_number word
  have marked : HasMark "0x1e_5".toList := ⟨.hexadecimal, 'x', by decide, "1e_5".toList, rfl⟩
  have isInteger : token.kind = .integer := by
    rcases kinds with isInteger | isFloat'
    · exact isInteger
    · exact absurd marked (isFloat.mp isFloat').1
  have read : readLiteral "0x1e_5".toList {} = .ok 485 := by decide
  exact ⟨word, token, by rw [(converts isInteger {}).1 485 read], tokens⟩

end Conversion
end ScriptLiterals
