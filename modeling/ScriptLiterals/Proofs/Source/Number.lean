import ScriptLiterals.Proofs.Source.Character
import ScriptLiterals.Proofs.Source.Skipping

/-!
The cut behind a number: its fraction, its exponent and its kind.

Main statement: `number_eq_iff`.
-/

namespace ScriptLiterals

theorem hasMark_iff (text : Text) : HasMark text ↔ (Radix.detect text).1 ≠ .decimal := by
  constructor
  · rintro ⟨radix, letter, marks, more, rfl⟩
    rw [((Radix.marked_iff ..).mp (.mark more marks)).1]
    rintro rfl
    simp [Radix.letters] at marks
  · intro marked
    have detected := Radix.marked_detect text
    generalize (Radix.detect text).1 = radix, text.drop (Radix.detect text).2 = region
      at marked detected
    cases detected with
    | mark region letter => exact ⟨radix, _, letter, region, rfl⟩
    | plain _ => exact absurd rfl marked

theorem startsWithDigit_iff (source : Text) :
    Lexeme.startsWithDigit source = true ↔ ∃ digit more, isDigit digit ∧ source = digit :: more := by
  cases source with
  | nil => simp [Lexeme.startsWithDigit]
  | cons c rest => simp [Lexeme.startsWithDigit]

theorem fraction?_complete {fraction rest : Text} (isFraction : IsFraction fraction rest) :
    Lexeme.fraction? (fraction ++ rest) = some (fraction, rest) := by
  obtain ⟨digit, more, rfl, isDigit, isRun⟩ := isFraction
  have cut := run_complete isRun
  rw [List.cons_append] at cut
  simp [Lexeme.fraction?, Lexeme.startsWithDigit, isDigit, Lexeme.onto, cut]

theorem fraction?_sound {source fraction rest : Text}
    (cut : Lexeme.fraction? source = some (fraction, rest)) : IsFraction fraction rest := by
  unfold Lexeme.fraction? at cut
  split at cut
  · next inner =>
    split_ifs at cut with starts
    obtain ⟨digit, more, isDigit, rfl⟩ := (startsWithDigit_iff _).mp starts
    have isRun := isRun_run isWordChar (digit :: more)
    obtain ⟨rfl, rfl⟩ := Prod.mk.inj (Option.some.inj cut)
    refine ⟨digit, more.takeWhile isWordChar, ?_, isDigit, ?_⟩
    · simp [Lexeme.run, isWordChar_of_isDigit isDigit]
    · simpa [Lexeme.run, isWordChar_of_isDigit isDigit] using isRun
  · contradiction

theorem fraction?_eq_none_iff (source : Text) :
    Lexeme.fraction? source = none ↔ ¬ BeginsFraction source := by
  constructor
  · rintro none ⟨digit, more, isDigit, rfl⟩
    simp [Lexeme.fraction?, Lexeme.startsWithDigit, isDigit] at none
  · intro noFraction
    unfold Lexeme.fraction?
    split
    · next inner =>
      rw [if_neg]
      intro starts
      obtain ⟨digit, more, isDigit, rfl⟩ := (startsWithDigit_iff _).mp starts
      exact noFraction ⟨digit, more, isDigit, rfl⟩
    · rfl

theorem endsInExponentMark_iff (text : Text) :
    text.getLast?.any isExponentMark = true ↔ EndsInExponentMark text := by
  rcases List.eq_nil_or_concat' text with rfl | ⟨before, mark, rfl⟩
  · simp [EndsInExponentMark]
  · constructor
    · intro ends
      exact ⟨before, mark, by simpa using ends, rfl⟩
    · rintro ⟨before', mark', isMark, same⟩
      obtain ⟨-, last⟩ := List.append_inj' same rfl
      obtain rfl : mark = mark' := by simpa using last
      simpa using isMark

theorem signedExponent?_complete {text exponent rest : Text} (ends : EndsInExponentMark text)
    (isExponent : IsSignedExponent exponent rest) :
    Lexeme.signedExponent? text (exponent ++ rest) = some (exponent, rest) := by
  obtain ⟨sign, digit, more, rfl, isSign, isDigit, isRun⟩ := isExponent
  have cut := run_complete isRun
  rw [List.cons_append] at cut
  simp [Lexeme.signedExponent?, (endsInExponentMark_iff text).mpr ends, isSign,
    Lexeme.startsWithDigit, isDigit, Lexeme.onto, cut]

theorem signedExponent?_sound {text source exponent rest : Text}
    (cut : Lexeme.signedExponent? text source = some (exponent, rest)) :
    EndsInExponentMark text ∧ IsSignedExponent exponent rest := by
  unfold Lexeme.signedExponent? at cut
  split at cut
  · next sign inner =>
    split_ifs at cut with fits
    simp only [Bool.and_eq_true] at fits
    obtain ⟨⟨ends, isSign⟩, starts⟩ := fits
    obtain ⟨digit, more, isDigit, rfl⟩ := (startsWithDigit_iff _).mp starts
    have isRun := isRun_run isWordChar (digit :: more)
    obtain ⟨rfl, rfl⟩ := Prod.mk.inj (Option.some.inj cut)
    refine ⟨(endsInExponentMark_iff text).mp ends, sign, digit, more.takeWhile isWordChar, ?_,
      isSign, isDigit, ?_⟩
    · simp [Lexeme.run, isWordChar_of_isDigit isDigit]
    · simpa [Lexeme.run, isWordChar_of_isDigit isDigit] using isRun
  · contradiction

theorem signedExponent?_eq_none_iff (text source : Text) :
    Lexeme.signedExponent? text source = none ↔
      ¬ (EndsInExponentMark text ∧ BeginsSignedExponent source) := by
  rw [← endsInExponentMark_iff]
  cases source with
  | nil => simp [Lexeme.signedExponent?, BeginsSignedExponent]
  | cons sign inner =>
    have begins : BeginsSignedExponent (sign :: inner) ↔
        isSign sign = true ∧ Lexeme.startsWithDigit inner = true := by
      rw [startsWithDigit_iff]
      constructor
      · rintro ⟨sign', digit, more, isSign, isDigit, same⟩
        obtain ⟨rfl, rfl⟩ := List.cons.inj same
        exact ⟨isSign, digit, more, isDigit, rfl⟩
      · rintro ⟨isSign, digit, more, isDigit, rfl⟩
        exact ⟨sign, digit, more, isSign, isDigit, rfl⟩
    simp [Lexeme.signedExponent?, begins]

theorem dropWhile_mantissa {mantissa rest : Text} {mark : Char}
    (decimal : ∀ c ∈ mantissa, isDecimalChar c) (isMark : isExponentMark mark) :
    (mantissa ++ mark :: rest).dropWhile isDecimalChar = mark :: rest := by
  rw [List.dropWhile_append_of_pos decimal, List.dropWhile_cons_of_neg]
  simp [not_isDecimalChar_of_isExponentMark isMark]

theorem takeWhile_decimal_ne_nil {digit : Char} {more : Text} (isDigit' : isDigit digit = true) :
    (digit :: more).takeWhile isDecimalChar ≠ [] := by
  simp [isDecimalChar, isDigit']

theorem hasExponent_iff {digit : Char} {more : Text} (isDigit' : isDigit digit = true) :
    Lexeme.hasExponent (digit :: more) = true ↔ HasExponent (digit :: more) := by
  constructor
  · intro found
    unfold Lexeme.hasExponent at found
    split at found
    · contradiction
    · next mark rest split =>
      simp only [Bool.and_eq_true, List.all_eq_true] at found
      obtain ⟨⟨isMark, starts⟩, decimal⟩ := found
      obtain ⟨first, others, firstDigit, same⟩ := (startsWithDigit_iff _).mp starts
      refine ⟨(digit :: more).takeWhile isDecimalChar, mark, rest.takeWhile (· = '_'), first, others,
        ?_, takeWhile_decimal_ne_nil isDigit', List.all_eq_true.mp List.all_takeWhile, isMark, ?_,
        firstDigit, ?_⟩
      · rw [← same, List.takeWhile_append_dropWhile, ← split, List.takeWhile_append_dropWhile]
      · simpa using List.all_eq_true.mp (List.all_takeWhile (p := (· = '_')) (l := rest))
      · intro c member
        exact decimal c (by simp [same, member])
  · rintro ⟨mantissa, mark, separators, first, others, split, -, decimal, isMark, separated,
      firstDigit, rest⟩
    -- the separators behind the mark hide where the digits of the exponent begin
    have ends : (separators ++ first :: others).dropWhile (· = '_') = first :: others := by
      rw [List.dropWhile_append_of_pos (by simpa using separated), List.dropWhile_cons_of_neg]
      simpa using ne_separator_of_isDigit firstDigit
    rw [Lexeme.hasExponent, split, dropWhile_mantissa decimal isMark]
    simp only [ends, Bool.and_eq_true, List.all_eq_true]
    refine ⟨⟨isMark, by simpa [Lexeme.startsWithDigit] using firstDigit⟩, ?_⟩
    intro c member
    rcases List.mem_cons.mp member with rfl | member
    · simp [isDecimalChar, firstDigit]
    · exact rest c member

theorem endsAtExponentMark_iff {digit : Char} {more : Text} (isDigit' : isDigit digit = true) :
    Lexeme.endsAtExponentMark (digit :: more) = true ↔ EndsAtExponent (digit :: more) := by
  constructor
  · intro found
    unfold Lexeme.endsAtExponentMark at found
    split at found
    · next mark split =>
      refine ⟨(digit :: more).takeWhile isDecimalChar, mark, ?_, takeWhile_decimal_ne_nil isDigit',
        List.all_eq_true.mp List.all_takeWhile, found⟩
      rw [← split, List.takeWhile_append_dropWhile]
    · contradiction
  · rintro ⟨mantissa, mark, split, -, decimal, isMark⟩
    simp only [Lexeme.endsAtExponentMark, split, dropWhile_mantissa decimal isMark, isMark]

theorem EndsAtExponent.endsInExponentMark {text : Text} (ends : EndsAtExponent text) :
    EndsInExponentMark text := by
  obtain ⟨mantissa, mark, rfl, -, -, isMark⟩ := ends
  exact ⟨mantissa, mark, isMark, rfl⟩

theorem EndsAtExponent.not_hasExponent {digit : Char} {more : Text}
    (isDigit' : isDigit digit = true) (ends : EndsAtExponent (digit :: more)) :
    ¬ HasExponent (digit :: more) := by
  rw [← hasExponent_iff isDigit']
  obtain ⟨mantissa, mark, split, -, decimal, isMark⟩ := ends
  simp [Lexeme.hasExponent, split, dropWhile_mantissa decimal isMark, Lexeme.startsWithDigit]

theorem endsInExponentMark_append (head : Text) {text : Text} (nonempty : text ≠ []) :
    EndsInExponentMark (head ++ text) ↔ EndsInExponentMark text := by
  rw [← endsInExponentMark_iff, ← endsInExponentMark_iff, List.getLast?_append_of_ne_nil _ nonempty]

theorem IsFraction.ne_nil {fraction rest : Text} (isFraction : IsFraction fraction rest) :
    fraction ≠ [] := by
  obtain ⟨digit, more, rfl, -⟩ := isFraction
  simp

theorem IsFraction.beginsFraction {fraction rest : Text} (isFraction : IsFraction fraction rest)
    (behind : Text) : BeginsFraction (fraction ++ behind) := by
  obtain ⟨digit, more, rfl, isDigit, -⟩ := isFraction
  exact ⟨digit, more ++ behind, isDigit, rfl⟩

theorem IsSignedExponent.beginsSignedExponent {exponent rest : Text}
    (isExponent : IsSignedExponent exponent rest) : BeginsSignedExponent (exponent ++ rest) := by
  obtain ⟨sign, digit, more, rfl, isSign, isDigit, -⟩ := isExponent
  exact ⟨sign, digit, more ++ rest, isSign, isDigit, rfl⟩

theorem IsSignedExponent.not_beginsFraction {exponent rest : Text}
    (isExponent : IsSignedExponent exponent rest) : ¬ BeginsFraction (exponent ++ rest) := by
  obtain ⟨sign, digit, more, rfl, isSign, -⟩ := isExponent
  rintro ⟨digit', more', -, same⟩
  obtain rfl : sign = '.' := (List.cons.inj same).1
  exact absurd isSign (by decide)

theorem numberFrom_sound {digit : Char} {more : Text} (isDigit' : isDigit digit = true)
    (source : Text) :
    ∃ tail, (Lexeme.numberFrom (digit :: more) source).2.1 = digit :: more ++ tail ∧
      NumberEnd (digit :: more) (Lexeme.numberFrom (digit :: more) source).1 tail
        (Lexeme.numberFrom (digit :: more) source).2.2 := by
  unfold Lexeme.numberFrom
  -- every branch of the cut is one constructor of `NumberEnd`
  split
  · next marked =>
    have mark := (hasMark_iff _).mpr marked
    split
    · next fraction rest cut => exact ⟨fraction, rfl, .markedFraction mark (fraction?_sound cut)⟩
    · next none =>
      exact ⟨[], (List.append_nil _).symm, .marked mark ((fraction?_eq_none_iff _).mp none)⟩
  · next unmarked =>
    have noMark := mt (hasMark_iff _).mp unmarked
    split
    · next fraction rest cut =>
      have isFraction := fraction?_sound cut
      split
      · next exponent rest' cut' =>
        obtain ⟨ends, isExponent⟩ := signedExponent?_sound cut'
        rw [endsInExponentMark_append _ isFraction.ne_nil] at ends
        refine ⟨fraction ++ exponent, List.append_assoc .., ?_⟩
        rw [← Lexeme.signedExponent?_append cut'] at isFraction
        exact .fractionExponent noMark isFraction ends isExponent
      · next none =>
        rw [signedExponent?_eq_none_iff, endsInExponentMark_append _ isFraction.ne_nil] at none
        exact ⟨fraction, rfl, .fraction noMark isFraction none⟩
    · next none =>
      have noFraction := (fraction?_eq_none_iff _).mp none
      split
      · next found =>
        exact ⟨[], (List.append_nil _).symm,
          .exponent noMark noFraction ((hasExponent_iff isDigit').mp found)⟩
      · next noExponent =>
        have noExponent := mt (hasExponent_iff isDigit').mpr noExponent
        split
        · next found =>
          have ends := (endsAtExponentMark_iff isDigit').mp found
          split
          · next exponent rest cut =>
            exact ⟨exponent, rfl, .signedExponent noMark ends (signedExponent?_sound cut).2⟩
          · next none =>
            rw [signedExponent?_eq_none_iff] at none
            refine ⟨[], (List.append_nil _).symm, .plain noMark noFraction noExponent ?_⟩
            rintro ⟨ends, begins⟩
            exact none ⟨ends.endsInExponentMark, begins⟩
        · next noEnd =>
          have noEnd := mt (endsAtExponentMark_iff isDigit').mpr noEnd
          exact ⟨[], (List.append_nil _).symm,
            .plain noMark noFraction noExponent fun both => noEnd both.1⟩

theorem numberFrom_complete {digit : Char} {more tail rest : Text} {kind : NumberKind}
    (isDigit' : isDigit digit = true) (numberEnd : NumberEnd (digit :: more) kind tail rest) :
    Lexeme.numberFrom (digit :: more) (tail ++ rest) = (kind, digit :: more ++ tail, rest) := by
  cases numberEnd with
  | marked mark noFraction =>
    rw [Lexeme.numberFrom, if_pos ((hasMark_iff _).mp mark), List.nil_append,
      (fraction?_eq_none_iff _).mpr noFraction, List.append_nil]
  | markedFraction mark isFraction =>
    rw [Lexeme.numberFrom, if_pos ((hasMark_iff _).mp mark), fraction?_complete isFraction]
  | fraction noMark isFraction noExponent =>
    rw [Lexeme.numberFrom, if_neg (mt (hasMark_iff _).mpr noMark), fraction?_complete isFraction]
    simp only
    rw [(signedExponent?_eq_none_iff ..).mpr]
    rwa [endsInExponentMark_append _ isFraction.ne_nil]
  | fractionExponent noMark isFraction ends isExponent =>
    rw [Lexeme.numberFrom, if_neg (mt (hasMark_iff _).mpr noMark), List.append_assoc,
      fraction?_complete isFraction]
    simp only
    rw [signedExponent?_complete _ isExponent]
    · simp only [List.append_assoc]
    · rwa [endsInExponentMark_append _ isFraction.ne_nil]
  | exponent noMark noFraction hasExponent =>
    rw [Lexeme.numberFrom, if_neg (mt (hasMark_iff _).mpr noMark), List.nil_append,
      (fraction?_eq_none_iff _).mpr noFraction, if_pos ((hasExponent_iff isDigit').mpr hasExponent),
      List.append_nil]
  | signedExponent noMark ends isExponent =>
    have noExponent := mt (hasExponent_iff isDigit').mp (ends.not_hasExponent isDigit')
    rw [Lexeme.numberFrom, if_neg (mt (hasMark_iff _).mpr noMark),
      (fraction?_eq_none_iff _).mpr isExponent.not_beginsFraction, if_neg noExponent,
      if_pos ((endsAtExponentMark_iff isDigit').mpr ends),
      signedExponent?_complete ends.endsInExponentMark isExponent]
  | plain noMark noFraction noExponent noSignedExponent =>
    rw [Lexeme.numberFrom, if_neg (mt (hasMark_iff _).mpr noMark), List.nil_append,
      (fraction?_eq_none_iff _).mpr noFraction, List.append_nil]
    simp only
    rw [if_neg (mt (hasExponent_iff isDigit').mp noExponent)]
    split_ifs with found
    · have ends := (endsAtExponentMark_iff isDigit').mp found
      rw [(signedExponent?_eq_none_iff ..).mpr fun both => noSignedExponent ⟨ends, both.2⟩]
    · rfl

/-- A number is cut as the grammar of numbers says. -/
theorem number_eq_iff {digit : Char} {source : Text} (isDigit' : isDigit digit = true)
    (kind : NumberKind) (text rest : Text) :
    Lexeme.number (digit :: source) = (kind, text, rest) ↔
      text ++ rest = digit :: source ∧ IsNumber kind text rest := by
  have wordChar := isWordChar_of_isDigit isDigit'
  constructor
  · intro cut
    have whole := Lexeme.number_append (digit :: source)
    have isRun := isRun_run isWordChar (digit :: source)
    have sound := @numberFrom_sound digit (source.takeWhile isWordChar) isDigit'
      (source.dropWhile isWordChar)
    have after := Lexeme.numberFrom_append (digit :: source.takeWhile isWordChar)
      (source.dropWhile isWordChar)
    simp only [Lexeme.number, Lexeme.run, List.takeWhile_cons_of_pos wordChar,
      List.dropWhile_cons_of_pos wordChar] at cut whole isRun
    rw [cut] at whole sound after
    obtain ⟨tail, head, numberEnd⟩ := sound
    obtain rfl : text = digit :: source.takeWhile isWordChar ++ tail := head
    rw [List.append_assoc] at after
    have follows : source.dropWhile isWordChar = tail ++ rest := (List.append_cancel_left after).symm
    exact ⟨whole, digit, _, tail, rfl, isDigit', follows ▸ isRun, numberEnd⟩
  · rintro ⟨whole, digit', more, tail, rfl, isDigit'', isRun, numberEnd⟩
    have cut := run_complete isRun
    rw [← List.append_assoc, whole] at cut
    obtain ⟨takes, drops⟩ := Prod.mk.inj cut
    rw [Lexeme.number, takes, drops]
    exact numberFrom_complete isDigit'' numberEnd

theorem IsFraction.characters {fraction rest : Text} (isFraction : IsFraction fraction rest) :
    ∀ c ∈ fraction, isNumberChar c := by
  obtain ⟨digit, more, rfl, -, isRun⟩ := isFraction
  intro c member
  rcases List.mem_cons.mp member with rfl | member
  · rfl
  · exact isNumberChar_of_isWordChar (isRun.1 c member)

theorem IsSignedExponent.characters {exponent rest : Text}
    (isExponent : IsSignedExponent exponent rest) : ∀ c ∈ exponent, isNumberChar c := by
  obtain ⟨sign, digit, more, rfl, isSign, -, isRun⟩ := isExponent
  intro c member
  rcases List.mem_cons.mp member with rfl | member
  · exact isNumberChar_of_isSign isSign
  · exact isNumberChar_of_isWordChar (isRun.1 c member)

theorem NumberEnd.characters {head tail rest : Text} {kind : NumberKind}
    (numberEnd : NumberEnd head kind tail rest) : ∀ c ∈ tail, isNumberChar c := by
  cases numberEnd with
  | marked | exponent | plain => simp
  | markedFraction _ isFraction => exact isFraction.characters
  | fraction _ isFraction _ => exact isFraction.characters
  | fractionExponent _ isFraction _ isExponent =>
    intro c member
    rcases List.mem_append.mp member with member | member
    · exact isFraction.characters c member
    · exact isExponent.characters c member
  | signedExponent _ _ isExponent => exact isExponent.characters

theorem IsNumber.characters {kind : NumberKind} {text rest : Text} (number : IsNumber kind text rest) :
    ∀ c ∈ text, isNumberChar c := by
  obtain ⟨digit, more, tail, rfl, -, isRun, numberEnd⟩ := number
  intro c member
  rcases List.mem_append.mp member with member | member
  · exact isNumberChar_of_isWordChar (isRun.1 c member)
  · exact numberEnd.characters c member

end ScriptLiterals
