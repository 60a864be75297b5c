import ScriptLiterals.Proofs.Literal.Accumulate
import ScriptLiterals.Proofs.Literal.Grammar

/-!
What is known of a digit region after some of its characters. The beginning of a region is clean if
it can still be continued to a literal; reading keeps a record that is a function of the clean
beginning, and stops at the first character behind which it is not clean.

Main statements: one step (`take_after`) and a whole run (`takeAll_after`).
-/

namespace ScriptLiterals

def firstDigit? : Nat → Text → Option (Nat × Char)
  | _, [] => none
  | offset, c :: rest => if c = '_' then firstDigit? (offset + 1) rest else some (offset, c)

def Reading.after (radix : Radix) (start : Nat) (seen : Text) : Reading :=
  ⟨radix.value seen.withoutSeparators, firstDigit? start seen, seen.getLast? = some '_'⟩

/-- Each separator in `seen` stands directly behind a digit and is not the last character of all. -/
def Radix.Separated (radix : Radix) (seen rest : Text) : Prop :=
  ∀ before behind, seen = before ++ '_' :: behind →
    (∃ d ∈ before.getLast?, radix.IsDigit d) ∧ behind ++ rest ≠ []

/-- The beginning `seen` of a digit region, behind which `rest` follows, has no fault. -/
structure IsClean (radix : Radix) (options : Options) (seen rest : Text) : Prop where
  characters : ∀ c ∈ seen, c = '_' ∨ radix.IsDigit c
  separated : options.separators = .strict → radix.Separated seen rest
  noLeadingZero : options.leadingZeros = false → radix = .decimal →
    ∀ c more, seen.withoutSeparators ≠ '0' :: c :: more
  bounded : (radix.value seen.withoutSeparators : Int) ≤ options.width.maximum

/-- The error with which reading stops at `c`, the character behind a clean beginning. -/
inductive StopsWith (text : Text) (radix : Radix) (options : Options) (start : Nat)
    (seen : Text) (rest : Text) : Char → LiteralError → Prop
  | separator (strict : options.separators = .strict)
      (misplaced : (∀ d ∈ seen.getLast?, ¬ radix.IsDigit d) ∨ rest = []) :
      StopsWith text radix options start seen rest '_'
        (.badCharacter text (start + seen.length) radix '_')
  | character {c : Char} (regular : c ≠ '_') (noDigit : ¬ radix.IsDigit c) :
      StopsWith text radix options start seen rest c
        (.badCharacter text (start + seen.length) radix c)
  | leadingZero {c : Char} {offset : Nat} (digit : radix.IsDigit c) (decimal : radix = .decimal)
      (refused : options.leadingZeros = false) (first : firstDigit? start seen = some (offset, '0')) :
      StopsWith text radix options start seen rest c (.leadingZero text offset)
  | overflow {c : Char} (digit : radix.IsDigit c)
      (allowed : options.leadingZeros = false → radix = .decimal →
        ∀ offset, firstDigit? start seen ≠ some (offset, '0'))
      (exceeds : options.width.maximum < radix.value (seen.withoutSeparators ++ [c])) :
      StopsWith text radix options start seen rest c
        (.overflow text (start + seen.length) radix options.width.bits)

namespace Text

@[simp]
theorem withoutSeparators_nil : withoutSeparators [] = [] := rfl

@[simp]
theorem withoutSeparators_append (first second : Text) :
    (first ++ second).withoutSeparators = first.withoutSeparators ++ second.withoutSeparators :=
  List.filter_append ..

@[simp]
theorem withoutSeparators_separator : withoutSeparators ['_'] = [] := rfl

theorem withoutSeparators_digit {radix : Radix} {c : Char} (digit : radix.IsDigit c) :
    withoutSeparators [c] = [c] := by
  simp [withoutSeparators, digit.ne_separator]

end Text

theorem firstDigit?_append (start : Nat) (seen more : Text) :
    firstDigit? start (seen ++ more) =
      (firstDigit? start seen).or (firstDigit? (start + seen.length) more) := by
  induction seen generalizing start with
  | nil => rfl
  | cons c seen ih =>
    simp only [List.cons_append, firstDigit?, List.length_cons, ih]
    split
    · rw [Nat.add_right_comm, Nat.add_assoc]
    · rfl

theorem firstDigit?_map_snd (start : Nat) (seen : Text) :
    (firstDigit? start seen).map (·.2) = seen.withoutSeparators.head? := by
  induction seen generalizing start with
  | nil => rfl
  | cons c seen ih =>
    by_cases separator : c = '_'
    · simpa [firstDigit?, Text.withoutSeparators, separator] using ih (start + 1)
    · simp [firstDigit?, Text.withoutSeparators, separator]

theorem firstDigit?_eq_none_iff (start : Nat) (seen : Text) :
    firstDigit? start seen = none ↔ seen.withoutSeparators = [] := by
  rw [← List.head?_eq_none_iff, ← firstDigit?_map_snd start, Option.map_eq_none_iff]

section Clean

variable {radix : Radix} {options : Options} {seen rest : Text} {c : Char}

theorem Radix.separated_nil (radix : Radix) (rest : Text) : radix.Separated [] rest := by
  intro before behind same
  simp at same

theorem Radix.Separated.append_digit (separated : radix.Separated seen (c :: rest))
    (regular : c ≠ '_') : radix.Separated (seen ++ [c]) rest := by
  intro before behind same
  rcases List.eq_nil_or_concat behind with rfl | ⟨inner, last, rfl⟩
  · have ends := congrArg List.getLast? same
    simp only [List.getLast?_concat, Option.some.injEq] at ends
    exact absurd ends regular
  · have split : seen ++ [c] = (before ++ '_' :: inner) ++ [last] := by simpa using same
    obtain ⟨rfl, same⟩ := List.append_inj' split rfl
    refine ⟨(separated before inner rfl).1, by simp⟩

theorem Radix.Separated.append_separator (separated : radix.Separated seen ('_' :: rest))
    (digit : ∃ d ∈ seen.getLast?, radix.IsDigit d) (more : rest ≠ []) :
    radix.Separated (seen ++ ['_']) rest := by
  intro before behind same
  rcases List.eq_nil_or_concat behind with rfl | ⟨inner, last, rfl⟩
  · obtain ⟨rfl, -⟩ := List.append_inj' same rfl
    exact ⟨digit, by simpa using more⟩
  · have split : seen ++ ['_'] = (before ++ '_' :: inner) ++ [last] := by simpa using same
    obtain ⟨rfl, -⟩ := List.append_inj' split rfl
    exact ⟨(separated before inner rfl).1, by simp⟩

theorem Radix.Separated.of_append {first second : Text}
    (separated : radix.Separated (first ++ second) rest) :
    radix.Separated first (second ++ rest) := by
  intro before behind same
  have := separated before (behind ++ second) (by simp [same])
  simpa using this

theorem Width.maximum_nonneg (width : Width) : 0 ≤ width.maximum := by
  cases width <;> decide

theorem isClean_nil (radix : Radix) (options : Options) (rest : Text) :
    IsClean radix options [] rest where
  characters := by simp
  separated := fun _ => radix.separated_nil rest
  noLeadingZero := by simp
  bounded := options.width.maximum_nonneg

theorem Radix.value_le_append (radix : Radix) (digits more : Text) :
    radix.value digits ≤ radix.value (digits ++ more) := by
  induction more using List.reverseRecOn with
  | nil => simp
  | append_singleton more d ih =>
    have positive : 1 ≤ radix.alphabet.length := by cases radix <;> decide
    calc
      radix.value digits ≤ radix.value (digits ++ more) := ih
      _ ≤ radix.value (digits ++ more) * radix.alphabet.length := Nat.le_mul_of_pos_right _ positive
      _ ≤ radix.value (digits ++ more) * radix.alphabet.length + radix.rank d := Nat.le_add_right _ _
      _ = radix.value (digits ++ (more ++ [d])) := by
        rw [← List.append_assoc, radix.value_append_digit]

theorem IsClean.of_append {first second : Text}
    (clean : IsClean radix options (first ++ second) rest) :
    IsClean radix options first (second ++ rest) where
  characters := fun c member => clean.characters c (List.mem_append_left second member)
  separated := fun strict => (clean.separated strict).of_append
  noLeadingZero := by
    intro refused decimal c more same
    refine clean.noLeadingZero refused decimal c (more ++ second.withoutSeparators) ?_
    rw [Text.withoutSeparators_append, same, List.cons_append, List.cons_append]
  bounded := by
    have grows := radix.value_le_append first.withoutSeparators second.withoutSeparators
    have bounded := clean.bounded
    rw [Text.withoutSeparators_append] at bounded
    omega

theorem IsClean.append_separator (clean : IsClean radix options seen ('_' :: rest))
    (allowed : options.separators = .strict →
      (∃ d ∈ seen.getLast?, radix.IsDigit d) ∧ rest ≠ []) :
    IsClean radix options (seen ++ ['_']) rest where
  characters := by
    intro c member
    rcases List.mem_append.mp member with member | member
    · exact clean.characters c member
    · exact .inl (List.mem_singleton.mp member)
  separated := fun strict =>
    (clean.separated strict).append_separator (allowed strict).1 (allowed strict).2
  noLeadingZero := by simpa using clean.noLeadingZero
  bounded := by simpa using clean.bounded

theorem IsClean.append_digit (clean : IsClean radix options seen (c :: rest))
    (digit : radix.IsDigit c)
    (allowed : options.leadingZeros = false → radix = .decimal →
      seen.withoutSeparators.head? ≠ some '0')
    (bounded : (radix.value (seen.withoutSeparators ++ [c]) : Int) ≤ options.width.maximum) :
    IsClean radix options (seen ++ [c]) rest where
  characters := by
    intro d member
    rcases List.mem_append.mp member with member | member
    · exact clean.characters d member
    · exact .inr (List.mem_singleton.mp member ▸ digit)
  separated := by
    intro strict
    exact (clean.separated strict).append_digit digit.ne_separator
  noLeadingZero := by
    intro refused decimal d more same
    have head := allowed refused decimal
    rw [Text.withoutSeparators_append, Text.withoutSeparators_digit digit] at same
    cases digits : seen.withoutSeparators with
    | nil => simp [digits] at same
    | cons first others => simp_all
  bounded := by
    rw [Text.withoutSeparators_append, Text.withoutSeparators_digit digit]
    exact bounded

theorem IsClean.eq_zero_of_firstDigit? (clean : IsClean radix options seen rest)
    (refused : options.leadingZeros = false) (decimal : radix = .decimal) {start offset : Nat}
    (first : firstDigit? start seen = some (offset, '0')) : seen.withoutSeparators = ['0'] := by
  have head : seen.withoutSeparators.head? = some '0' := by
    rw [← firstDigit?_map_snd start, first, Option.map_some]
  rcases List.head?_eq_some_iff.mp head with ⟨more, same⟩
  cases more with
  | nil => exact same
  | cons c more => exact absurd same (clean.noLeadingZero refused decimal c more)

theorem StopsWith.not_isClean {text : Text} {start : Nat} {e : LiteralError}
    (stops : StopsWith text radix options start seen rest c e) :
    ¬ IsClean radix options (seen ++ [c]) rest := by
  intro clean
  -- each way to stop contradicts one field of `IsClean`
  cases stops with
  | separator strict misplaced =>
    obtain ⟨⟨d, last, digit⟩, more⟩ := clean.separated strict seen [] rfl
    rcases misplaced with noDigit | rfl
    · exact noDigit d last digit
    · simp at more
  | character regular noDigit =>
    rcases clean.characters c (by simp) with separator | digit
    · exact regular separator
    · exact noDigit digit
  | leadingZero digit decimal refused first =>
    have head : seen.withoutSeparators.head? = some '0' := by
      rw [← firstDigit?_map_snd start, first, Option.map_some]
    obtain ⟨more, same⟩ : ∃ more, seen.withoutSeparators = '0' :: more := by
      simpa [List.head?_eq_some_iff] using head
    refine absurd ?_ (clean.noLeadingZero refused decimal ((more ++ [c]).head (by simp))
      (more ++ [c]).tail)
    rw [Text.withoutSeparators_append, Text.withoutSeparators_digit digit, same]
    simp [List.cons_head_tail]
  | overflow digit allowed exceeds =>
    have bounded := clean.bounded
    rw [Text.withoutSeparators_append, Text.withoutSeparators_digit digit] at bounded
    omega

theorem StopsWith.not_isClean_whole {text : Text} {start : Nat} {e : LiteralError}
    (stops : StopsWith text radix options start seen rest c e) :
    ¬ IsClean radix options (seen ++ c :: rest) [] := by
  intro whole
  rw [List.append_cons] at whole
  apply stops.not_isClean
  simpa using whole.of_append

end Clean

namespace Reading

section Step

variable {radix : Radix} {options : Options} {seen rest : Text} {c : Char}

theorem after_append_separator (radix : Radix) (start : Nat) (seen : Text) :
    after radix start (seen ++ ['_']) = { after radix start seen with afterSeparator := true } := by
  simp [after, firstDigit?_append, firstDigit?]

theorem after_append_digit (start : Nat) (digit : radix.IsDigit c) :
    after radix start (seen ++ [c]) =
      ⟨radix.value (seen.withoutSeparators ++ [c]),
        (firstDigit? start seen).or (some (start + seen.length, c)), false⟩ := by
  simp [after, firstDigit?_append, firstDigit?, Text.withoutSeparators_digit digit,
    digit.ne_separator]

theorem refusesSeparator_after (start : Nat) (clean : IsClean radix options seen rest)
    (policy : SeparatorPolicy) (last : Bool) :
    (after radix start seen).refusesSeparator policy last = true ↔
      policy = .strict ∧ ((∀ d ∈ seen.getLast?, ¬ radix.IsDigit d) ∨ last = true) := by
  have known : ((firstDigit? start seen).isNone || decide (seen.getLast? = some '_')) = true ↔
      ∀ d ∈ seen.getLast?, ¬ radix.IsDigit d := by
    rcases List.eq_nil_or_concat seen with rfl | ⟨before, d, rfl⟩
    · simp [firstDigit?]
    · rcases clean.characters d (by simp) with rfl | digit
      · simp [radix.not_isDigit_separator]
      · simp [firstDigit?_append, firstDigit?, digit.ne_separator, digit]
  simp only [refusesSeparator, after, Bool.and_eq_true, decide_eq_true_eq]
  rw [Bool.or_eq_true, known]

theorem leadingZero?_after_eq_some_iff (start : Nat) (clean : IsClean radix options seen rest)
    (offset : Nat) :
    (after radix start seen).leadingZero? radix options = some offset ↔
      options.leadingZeros = false ∧ radix = .decimal ∧
        firstDigit? start seen = some (offset, '0') := by
  constructor
  · intro found
    unfold leadingZero? after at found
    split at found
    · next first =>
      split_ifs at found with leading
      obtain rfl := Option.some.inj found
      simp only [Bool.and_eq_true, Bool.not_eq_true', decide_eq_true_eq] at leading
      exact ⟨leading.1.1.1, leading.1.1.2, leading.2 ▸ first⟩
    · contradiction
  · rintro ⟨refused, rfl, first⟩
    have value : Radix.decimal.value seen.withoutSeparators = 0 := by
      rw [clean.eq_zero_of_firstDigit? refused rfl first]
      decide
    simp [leadingZero?, after, first, refused, value]

theorem appendDigit?_after (radix : Radix) (start : Nat) (seen : Text) (c : Char) (limit : Int) :
    appendDigit? (after radix start seen).value radix.base (radix.rank c) limit =
      if (radix.value (seen.withoutSeparators ++ [c]) : Int) ≤ limit then
        some (radix.value (seen.withoutSeparators ++ [c]) : Int)
      else none := by
  have positive : 0 < radix.base := by cases radix <;> decide
  have sum : (radix.value seen.withoutSeparators : Int) * radix.base + radix.rank c =
      radix.value (seen.withoutSeparators ++ [c]) := by
    rw [radix.value_append_digit, radix.base_eq]
    push_cast
    rfl
  rw [appendDigit?_eq positive (Int.natCast_nonneg _)]
  simp only [after, sum]

theorem takeDigit_after (text : Text) (start : Nat) (clean : IsClean radix options seen (c :: rest))
    (digit : radix.IsDigit c) :
    ((after radix start seen).takeDigit text radix options (start + seen.length) c (radix.rank c) =
        .ok (after radix start (seen ++ [c])) ∧
      IsClean radix options (seen ++ [c]) rest) ∨
    ∃ e, (after radix start seen).takeDigit text radix options (start + seen.length) c
        (radix.rank c) = .error e ∧
      StopsWith text radix options start seen rest c e := by
  -- the tests in the order of the step: first a leading zero, then the width
  cases first : (after radix start seen).leadingZero? radix options with
  | some offset =>
    obtain ⟨refused, decimal, zero⟩ := (leadingZero?_after_eq_some_iff start clean _).mp first
    exact .inr ⟨.leadingZero text offset, by simp [takeDigit, first],
      .leadingZero digit decimal refused zero⟩
  | none =>
    have allowed : options.leadingZeros = false → radix = .decimal →
        ∀ offset, firstDigit? start seen ≠ some (offset, '0') := by
      intro refused decimal offset zero
      rw [(leadingZero?_after_eq_some_iff start clean offset).mpr ⟨refused, decimal, zero⟩] at first
      contradiction
    by_cases fits : (radix.value (seen.withoutSeparators ++ [c]) : Int) ≤ options.width.maximum
    · refine .inl ⟨?_, clean.append_digit digit ?_ fits⟩
      · simp only [takeDigit, first, appendDigit?_after, if_pos fits]
        rw [after_append_digit start digit]
        rfl
      · intro refused decimal head
        rw [← firstDigit?_map_snd start] at head
        obtain ⟨⟨offset, d⟩, found, rfl⟩ := Option.map_eq_some_iff.mp head
        exact allowed refused decimal offset found
    · refine .inr ⟨.overflow text (start + seen.length) radix options.width.bits, ?_,
        .overflow digit allowed (by omega)⟩
      simp only [takeDigit, first, appendDigit?_after, if_neg fits]

theorem take_after (text : Text) (start : Nat) (clean : IsClean radix options seen (c :: rest)) :
    ((after radix start seen).take text radix options (start + seen.length) c rest.isEmpty =
        .ok (after radix start (seen ++ [c])) ∧
      IsClean radix options (seen ++ [c]) rest) ∨
    ∃ e, (after radix start seen).take text radix options (start + seen.length) c rest.isEmpty =
        .error e ∧
      StopsWith text radix options start seen rest c e := by
  by_cases separator : c = '_'
  · subst c
    by_cases refused :
        (after radix start seen).refusesSeparator options.separators rest.isEmpty = true
    · obtain ⟨strict, misplaced⟩ := (refusesSeparator_after start clean _ _).mp refused
      rw [List.isEmpty_iff] at misplaced
      exact .inr ⟨_, by simp [take, refused], .separator strict misplaced⟩
    · refine .inl ⟨by simp [take, refused, after_append_separator], clean.append_separator ?_⟩
      intro strict
      rw [refusesSeparator_after start clean] at refused
      simpa [strict] using refused
  · by_cases digit : radix.IsDigit c
    · rw [take, if_neg separator, radix.digit?_eq, if_pos digit]
      exact takeDigit_after text start clean digit
    · exact .inr ⟨_, by simp [take, separator, radix.digit?_eq, digit], .character separator digit⟩

/-- A run from a clean beginning: all that follows is clean too and the record with it, or reading
stops at some character of it. -/
theorem takeAll_after (text : Text) (start : Nat) (clean : IsClean radix options seen rest) :
    (takeAll text radix options (after radix start seen) (start + seen.length) rest =
        .ok (after radix start (seen ++ rest)) ∧
      IsClean radix options (seen ++ rest) []) ∨
    ∃ before c behind e, rest = before ++ c :: behind ∧
      IsClean radix options (seen ++ before) (c :: behind) ∧
      takeAll text radix options (after radix start seen) (start + seen.length) rest = .error e ∧
      StopsWith text radix options start (seen ++ before) behind c e := by
  -- the clean beginning grows by a character with each step
  induction rest generalizing seen with
  | nil => exact .inl ⟨by simp [takeAll], by simpa using clean⟩
  | cons c rest ih =>
    rcases take_after text start clean with ⟨taken, clean'⟩ | ⟨e, refused, stops⟩
    · have length : start + seen.length + 1 = start + (seen ++ [c]).length := by
        rw [List.length_append, List.length_singleton, Nat.add_assoc]
      have unfolded : takeAll text radix options (after radix start seen) (start + seen.length)
            (c :: rest) =
          takeAll text radix options (after radix start (seen ++ [c]))
            (start + (seen ++ [c]).length) rest := by
        rw [takeAll, taken, ← length]
      rw [unfolded]
      rcases ih clean' with ⟨read, last⟩ | ⟨before, d, behind, e, rfl, clean'', read, stops⟩
      · exact .inl (by simpa using And.intro read last)
      · exact .inr ⟨c :: before, d, behind, e, rfl, by simpa using clean'', read,
          by simpa using stops⟩
    · refine .inr ⟨[], c, rest, e, rfl, by simpa using clean, ?_, by simpa using stops⟩
      rw [takeAll, refused]

end Step

end Reading
end ScriptLiterals
