import ScriptLiterals.Proofs.Source.Cutting

/-!
Where words and numbers end. What stands behind one of them is only asked whether it goes on, so the
region stays what it is before any text that goes on no further.

Main statements: `EndsAsBefore.of_front` for two texts, and `IsNumber.endsAsBefore`,
`IsIdentifier.endsAsBefore` and `IsOther.endsAsBefore` for the regions before them.
-/

namespace ScriptLiterals

/-- What makes a word, a number or a comment go on does not stand at the front of `rest'`, unless it
stands at the front of `rest`. -/
structure EndsAsBefore (rest rest' : Text) : Prop where
  word : ∀ c ∈ rest'.head?, isWordChar c = true → ∃ d ∈ rest.head?, isWordChar d = true
  fraction : BeginsFraction rest' → BeginsFraction rest
  exponent : BeginsSignedExponent rest' → BeginsSignedExponent rest
  comment : rest'.head? = some '/' ∨ rest'.head? = some '*' →
    rest.head? = some '/' ∨ rest.head? = some '*'

variable {text tail rest rest' : Text} {kind : NumberKind}

def GoesOn (c : Char) : Prop := isNumberChar c = true ∨ c = '/' ∨ c = '*'

instance (c : Char) : Decidable (GoesOn c) := inferInstanceAs (Decidable (_ ∨ _))

/-- If two texts are alike up to the first character that makes nothing go on, what goes on before the
second does so before the first. -/
theorem EndsAsBefore.of_front (alike : Text → Text → Prop)
    (front : ∀ {rest : Text} {c : Char} {more' : Text}, GoesOn c → alike rest (c :: more') →
      ∃ more, rest = c :: more ∧ alike more more')
    (start : alike rest rest') : EndsAsBefore rest rest' where
  -- what goes on is made of at most three characters, each of which `front` takes back to `rest`
  word := by
    intro c head wordChar
    obtain ⟨more', rfl⟩ := List.head?_eq_some_iff.mp head
    obtain ⟨more, rfl, -⟩ := front (.inl (isNumberChar_of_isWordChar wordChar)) start
    exact ⟨c, rfl, wordChar⟩
  fraction := by
    rintro ⟨digit, more', isDigit', rfl⟩
    obtain ⟨behind, rfl, others⟩ := front (.inl rfl) start
    have wordChar := isWordChar_of_isDigit isDigit'
    obtain ⟨more, rfl, -⟩ := front (.inl (isNumberChar_of_isWordChar wordChar)) others
    exact ⟨digit, more, isDigit', rfl⟩
  exponent := by
    rintro ⟨sign, digit, more', isSign', isDigit', rfl⟩
    obtain ⟨behind, rfl, others⟩ := front (.inl (isNumberChar_of_isSign isSign')) start
    have wordChar := isWordChar_of_isDigit isDigit'
    obtain ⟨more, rfl, -⟩ := front (.inl (isNumberChar_of_isWordChar wordChar)) others
    exact ⟨sign, digit, more, isSign', isDigit', rfl⟩
  comment := by
    rintro (slash | star)
    · obtain ⟨more', rfl⟩ := List.head?_eq_some_iff.mp slash
      obtain ⟨more, rfl, -⟩ := front (.inr (.inl rfl)) start
      exact .inl rfl
    · obtain ⟨more', rfl⟩ := List.head?_eq_some_iff.mp star
      obtain ⟨more, rfl, -⟩ := front (.inr (.inr rfl)) start
      exact .inr rfl

theorem GoesOn.ne_newline {c : Char} (goesOn : GoesOn c) : c ≠ '\n' := by
  rintro rfl
  exact absurd goesOn (by decide)

theorem GoesOn.ne_return {c : Char} (goesOn : GoesOn c) : c ≠ '\r' := by
  rintro rfl
  exact absurd goesOn (by decide)

theorem IsRun.endsAsBefore (isRun : IsRun isWordChar text (tail ++ rest))
    (ends : EndsAsBefore rest rest') : IsRun isWordChar text (tail ++ rest') := by
  refine ⟨isRun.1, ?_⟩
  intro c head wordChar
  cases tail with
  | nil =>
    obtain ⟨d, head, wordChar⟩ := ends.word c head wordChar
    exact isRun.2 d head wordChar
  | cons d tail => exact isRun.2 c (by simpa using head) wordChar

theorem IsFraction.endsAsBefore (isFraction : IsFraction text (tail ++ rest))
    (ends : EndsAsBefore rest rest') : IsFraction text (tail ++ rest') := by
  obtain ⟨digit, more, same, isDigit', isRun⟩ := isFraction
  exact ⟨digit, more, same, isDigit', isRun.endsAsBefore ends⟩

theorem IsSignedExponent.endsAsBefore (isExponent : IsSignedExponent text rest)
    (ends : EndsAsBefore rest rest') : IsSignedExponent text rest' := by
  obtain ⟨sign, digit, more, same, isSign', isDigit', isRun⟩ := isExponent
  exact ⟨sign, digit, more, same, isSign', isDigit', @IsRun.endsAsBefore _ [] _ _ isRun ends⟩

theorem NumberEnd.endsAsBefore {head : Text} (numberEnd : NumberEnd head kind tail rest)
    (ends : EndsAsBefore rest rest') : NumberEnd head kind tail rest' := by
  have noFraction : ¬ BeginsFraction rest → ¬ BeginsFraction rest' := mt ends.fraction
  have noExponent : ∀ {mark : Prop}, ¬ (mark ∧ BeginsSignedExponent rest) →
      ¬ (mark ∧ BeginsSignedExponent rest') := mt (And.imp_right ends.exponent)
  cases numberEnd with
  | marked mark none => exact .marked mark (noFraction none)
  | markedFraction mark isFraction =>
    exact .markedFraction mark (@IsFraction.endsAsBefore _ [] _ _ isFraction ends)
  | fraction noMark isFraction none =>
    exact .fraction noMark (@IsFraction.endsAsBefore _ [] _ _ isFraction ends) (noExponent none)
  | fractionExponent noMark isFraction mark isExponent =>
    exact .fractionExponent noMark (isFraction.endsAsBefore ends) mark (isExponent.endsAsBefore ends)
  | exponent noMark none hasExponent => exact .exponent noMark (noFraction none) hasExponent
  | signedExponent noMark mark isExponent =>
    exact .signedExponent noMark mark (isExponent.endsAsBefore ends)
  | plain noMark none noExponent' noSignedExponent =>
    exact .plain noMark (noFraction none) noExponent' (noExponent noSignedExponent)

theorem IsNumber.endsAsBefore (number : IsNumber kind text rest) (ends : EndsAsBefore rest rest') :
    IsNumber kind text rest' := by
  obtain ⟨digit, more, tail, same, isDigit', isRun, numberEnd⟩ := number
  exact ⟨digit, more, tail, same, isDigit', isRun.endsAsBefore ends, numberEnd.endsAsBefore ends⟩

theorem IsIdentifier.endsAsBefore (identifier : IsIdentifier text rest)
    (ends : EndsAsBefore rest rest') : IsIdentifier text rest' := by
  obtain ⟨c, more, same, starts, isRun⟩ := identifier
  exact ⟨c, more, same, starts, @IsRun.endsAsBefore _ [] _ _ isRun ends⟩

theorem IsOther.endsAsBefore (other : IsOther text rest) (ends : EndsAsBefore rest rest') :
    IsOther text rest' := by
  obtain ⟨c, same, noQuote, noWord, noComment⟩ := other
  exact ⟨c, same, noQuote, noWord, mt (And.imp_right ends.comment) noComment⟩

end ScriptLiterals
