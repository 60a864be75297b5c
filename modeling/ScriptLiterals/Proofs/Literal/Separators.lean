import ScriptLiterals.Proofs.Literal.Fault
import ScriptLiterals.Proofs.Literal.FirstFault

/-!
Separators among the digits of a literal. Where options let them stand anywhere they carry no meaning:
with more of them behind the mark a literal has the same radix and the same value, or the same error at
the same character.

Main statement: `separators_carry_no_meaning`.
-/

namespace ScriptLiterals

namespace Text

/-- A text with `counts n` separators put in before its character at `n`; the first character is at
`index`, and the separators for the place behind the last character stand at the end. -/
def withSeparators (counts : Nat → Nat) : Nat → Text → Text
  | index, [] => List.replicate (counts index) '_'
  | index, c :: rest =>
    List.replicate (counts index) '_' ++ c :: withSeparators counts (index + 1) rest

def separatorsBefore (counts : Nat → Nat) (index : Nat) : Nat :=
  ∑ n ∈ Finset.range (index + 1), counts n

variable (counts : Nat → Nat)

theorem withSeparators_append_cons (index : Nat) (before behind : Text) (c : Char) :
    withSeparators counts index (before ++ c :: behind) =
      withSeparators counts index before ++
        c :: withSeparators counts (index + before.length + 1) behind := by
  induction before generalizing index with
  | nil => rfl
  | cons d before ih =>
    have places : index + 1 + before.length + 1 = index + (before.length + 1) + 1 := by omega
    rw [List.cons_append, withSeparators, ih, withSeparators, List.length_cons, places,
      List.append_assoc, List.cons_append]

theorem withoutSeparators_replicate (count : Nat) :
    withoutSeparators (List.replicate count '_') = [] := by
  simp [withoutSeparators]

theorem withoutSeparators_withSeparators (index : Nat) (text : Text) :
    (withSeparators counts index text).withoutSeparators = text.withoutSeparators := by
  induction text generalizing index with
  | nil => exact withoutSeparators_replicate (counts index)
  | cons c rest ih =>
    rw [withSeparators, List.append_cons, withoutSeparators_append, withoutSeparators_append,
      withoutSeparators_replicate, ih, List.nil_append, ← withoutSeparators_append]
    rfl

theorem mem_withSeparators {index : Nat} {text : Text} {c : Char}
    (member : c ∈ withSeparators counts index text) : c = '_' ∨ c ∈ text := by
  induction text generalizing index with
  | nil => exact .inl (List.eq_of_mem_replicate member)
  | cons d rest ih =>
    rcases List.mem_append.mp member with put | member
    · exact .inl (List.eq_of_mem_replicate put)
    · rcases List.mem_cons.mp member with rfl | member
      · exact .inr List.mem_cons_self
      · exact (ih member).imp_right (List.mem_cons_of_mem d)

/-- Counting the separators before `index` on both sides, so that no difference is needed. -/
theorem length_withSeparators (index : Nat) (text : Text) :
    (withSeparators counts index text).length + ∑ n ∈ Finset.range index, counts n =
      text.length + separatorsBefore counts (index + text.length) := by
  induction text generalizing index with
  | nil =>
    simp only [withSeparators, List.length_replicate, List.length_nil, Nat.add_zero,
      separatorsBefore, Finset.sum_range_succ]
    omega
  | cons c rest ih =>
    have next := ih (index + 1)
    have places : index + 1 + rest.length = index + (rest.length + 1) := by omega
    rw [Finset.sum_range_succ, places] at next
    simp only [withSeparators, List.length_append, List.length_replicate, List.length_cons]
    omega

theorem exists_cons_of_withSeparators {index : Nat} {text more : Text} {c : Char}
    (regular : c ≠ '_') (front : withSeparators counts index text = c :: more) :
    ∃ rest, text = c :: rest ∧ more = withSeparators counts (index + 1) rest := by
  cases text with
  | nil =>
    have put : c ∈ withSeparators counts index [] := by
      rw [front]
      exact List.mem_cons_self
    exact absurd (List.eq_of_mem_replicate put) regular
  | cons d rest =>
    rw [withSeparators] at front
    cases number : counts index with
    | zero =>
      rw [number] at front
      obtain ⟨rfl, rfl⟩ := List.cons.inj front
      exact ⟨rest, rfl, rfl⟩
    | succ count =>
      rw [number, List.replicate_succ] at front
      exact absurd (List.cons.inj front).1.symm regular

end Text

theorem firstDigit?_replicate_append (start count : Nat) (more : Text) :
    firstDigit? start (List.replicate count '_' ++ more) = firstDigit? (start + count) more := by
  induction count generalizing start with
  | zero => rfl
  | succ count ih =>
    rw [List.replicate_succ, List.cons_append, firstDigit?, if_pos rfl, ih]
    congr 1
    omega

theorem firstDigit?_withSeparators (counts : Nat → Nat) (index : Nat) (seen : Text) :
    firstDigit? (index + ∑ n ∈ Finset.range index, counts n)
        (Text.withSeparators counts index seen) =
      (firstDigit? index seen).map fun (offset, c) =>
        (offset + Text.separatorsBefore counts offset, c) := by
  induction seen generalizing index with
  | nil =>
    have none := firstDigit?_replicate_append (index + ∑ n ∈ Finset.range index, counts n)
      (counts index) []
    rwa [List.append_nil] at none
  | cons c rest ih =>
    -- where the character at `index` stands now
    have place : index + ∑ n ∈ Finset.range index, counts n + counts index =
        index + Text.separatorsBefore counts index := by
      rw [Text.separatorsBefore, Finset.sum_range_succ, Nat.add_assoc]
    rw [Text.withSeparators, firstDigit?_replicate_append, place, firstDigit?, firstDigit?]
    split_ifs with separator
    · rw [← ih (index + 1), Text.separatorsBefore]
      congr 1
      omega
    · rfl

section Reading

variable {counts : Nat → Nat} {text seen rest rest' : Text} {radix : Radix} {options : Options}
  {c : Char} {e : LiteralError} {start : Nat}

theorem Radix.detect_withSeparators (behindMark : ∀ n < digitsStart text, counts n = 0) :
    Radix.detect (Text.withSeparators counts 0 text) = Radix.detect text ∧
      (Text.withSeparators counts 0 text).drop (digitsStart text) =
        Text.withSeparators counts (digitsStart text) (text.drop (digitsStart text)) := by
  obtain ⟨radix, region, marked⟩ := Radix.exists_marked text
  cases marked with
  | @mark _ c region letter =>
    rw [digitsStart, Radix.detect_mark letter] at behindMark ⊢
    have zero : counts 0 = 0 := behindMark 0 Nat.two_pos
    have one : counts 1 = 0 := behindMark 1 Nat.one_lt_two
    have front : Text.withSeparators counts 0 ('0' :: c :: region) =
        '0' :: c :: Text.withSeparators counts 2 region := by
      simp [Text.withSeparators, zero, one]
    rw [front, Radix.detect_mark letter]
    exact ⟨rfl, rfl⟩
  | plain unmarked =>
    rw [digitsStart, Radix.detect_plain unmarked]
    -- a mark in the longer text has no separator in it, so it was there before
    refine ⟨Radix.detect_plain ?_, rfl⟩
    intro radix c letter region same
    have regular : c ≠ '_' := by
      rintro rfl
      cases radix <;> exact absurd letter (by decide)
    obtain ⟨behind, rfl, second⟩ := Text.exists_cons_of_withSeparators counts (by decide) same
    obtain ⟨region, rfl, -⟩ := Text.exists_cons_of_withSeparators counts regular second.symm
    exact unmarked radix c letter region rfl

theorem IsClean.withSeparators (lenient : options.separators = .lenient) (index : Nat)
    (clean : IsClean radix options seen rest) :
    IsClean radix options (Text.withSeparators counts index seen) rest' where
  characters := by
    intro c member
    rcases Text.mem_withSeparators counts member with separator | member
    · exact .inl separator
    · exact clean.characters c member
  separated := by
    intro strict
    rw [lenient] at strict
    contradiction
  noLeadingZero := by
    rw [Text.withoutSeparators_withSeparators]
    exact clean.noLeadingZero
  bounded := by
    rw [Text.withoutSeparators_withSeparators]
    exact clean.bounded

theorem StopsWith.withSeparators (other : Text) (lenient : options.separators = .lenient)
    (none : ∑ n ∈ Finset.range start, counts n = 0)
    (stops : StopsWith text radix options start seen rest c e) :
    ∃ offset : Nat, e.offset = offset ∧
      StopsWith other radix options start (Text.withSeparators counts start seen) rest' c
        ⟨other, offset + Text.separatorsBefore counts offset, e.fault.quoting other⟩ := by
  have length := Text.length_withSeparators counts start seen
  have here : start + (Text.withSeparators counts start seen).length =
      start + seen.length + Text.separatorsBefore counts (start + seen.length) := by omega
  have found := firstDigit?_withSeparators counts start seen
  rw [none, Nat.add_zero] at found
  have digits := Text.withoutSeparators_withSeparators counts start seen
  -- errors point at `c`, only that of a leading zero at the zero
  cases stops with
  | separator strict =>
    rw [lenient] at strict
    contradiction
  | character regular noDigit =>
    refine ⟨start + seen.length, rfl, ?_⟩
    rw [← Nat.cast_add, ← here]
    exact .character regular noDigit
  | @leadingZero _ offset digit decimal refused first =>
    refine ⟨offset, rfl, ?_⟩
    rw [first] at found
    rw [← Nat.cast_add]
    exact .leadingZero digit decimal refused found
  | overflow digit allowed exceeds =>
    refine ⟨start + seen.length, rfl, ?_⟩
    rw [← Nat.cast_add, ← here]
    apply StopsWith.overflow digit
    · intro refused decimal offset first
      rw [found] at first
      obtain ⟨⟨offset, zero⟩, first, same⟩ := Option.map_eq_some_iff.mp first
      obtain ⟨-, rfl⟩ := Prod.mk.inj same
      exact allowed refused decimal offset first
    · rw [digits]
      exact exceeds

theorem readLiteral_withSeparators_of_isClean (lenient : options.separators = .lenient)
    (behindMark : ∀ n < digitsStart text, counts n = 0) {region : Text}
    (split : text.drop (digitsStart text) = region)
    (clean : IsClean (literalRadix text) options region []) :
    (region.withoutSeparators ≠ [] →
      readLiteral (Text.withSeparators counts 0 text) options =
        .ok ((literalRadix text).value region.withoutSeparators)) ∧
    (region.withoutSeparators = [] →
      readLiteral (Text.withSeparators counts 0 text) options =
        .error (.noDigits (Text.withSeparators counts 0 text) (literalRadix text))) := by
  obtain ⟨detected, behind⟩ := Radix.detect_withSeparators behindMark
  rw [split] at behind
  have whole := readLiteral_of_isClean detected behind (clean.withSeparators lenient _)
  rwa [Text.withoutSeparators_withSeparators] at whole

theorem readLiteral_withSeparators_of_stopsWith (lenient : options.separators = .lenient)
    (behindMark : ∀ n < digitsStart text, counts n = 0)
    (split : text.drop (digitsStart text) = seen ++ c :: rest)
    (clean : IsClean (literalRadix text) options seen (c :: rest))
    (stops : StopsWith text (literalRadix text) options (digitsStart text) seen rest c e) :
    ∃ offset : Nat, e.offset = offset ∧
      readLiteral (Text.withSeparators counts 0 text) options =
        .error ⟨Text.withSeparators counts 0 text, offset + Text.separatorsBefore counts offset,
          e.fault.quoting (Text.withSeparators counts 0 text)⟩ := by
  obtain ⟨detected, behind⟩ := Radix.detect_withSeparators behindMark
  have none : ∑ n ∈ Finset.range (digitsStart text), counts n = 0 := by
    apply Finset.sum_eq_zero
    intro n member
    exact behindMark n (Finset.mem_range.mp member)
  obtain ⟨offset, same, stops⟩ :=
    stops.withSeparators (Text.withSeparators counts 0 text) lenient none
  refine ⟨offset, same, ?_⟩
  rw [split, Text.withSeparators_append_cons] at behind
  exact readLiteral_of_stopsWith detected behind (clean.withSeparators lenient _) stops

end Reading

/-- Where options let separators stand anywhere, more of them behind the mark change nothing: neither
the radix nor the place where the digits begin, nor the value, nor the error, which moves along with
the character that it points at. -/
theorem separators_carry_no_meaning (text : Text) {options : Options} {counts : Nat → Nat}
    (lenient : options.separators = .lenient)
    (behindMark : ∀ n < digitsStart text, counts n = 0) :
    let other := Text.withSeparators counts 0 text
    Radix.detect other = Radix.detect text ∧
    (∀ value, readLiteral text options = .ok value → readLiteral other options = .ok value) ∧
    ∀ e, readLiteral text options = .error e → ∃ offset : Nat, e.offset = offset ∧
      readLiteral other options = .error
        ⟨other, offset + Text.separatorsBefore counts offset, e.fault.quoting other⟩ := by
  intro other
  have marked := Radix.marked_detect text
  refine ⟨(Radix.detect_withSeparators behindMark).1, ?_, ?_⟩
  · intro value read
    obtain ⟨rfl, clean, hasDigit⟩ := region_of_readLiteral_eq_ok marked read
    exact (readLiteral_withSeparators_of_isClean lenient behindMark rfl clean).1 hasDigit
  · intro e refused
    rcases region_of_readLiteral_eq_error marked refused with
      ⟨rfl, clean, noDigit⟩ | ⟨before, c, behind, split, clean, stops⟩
    · have length : other.length = text.length + Text.separatorsBefore counts text.length := by
        simpa using Text.length_withSeparators counts 0 text
      have read := (readLiteral_withSeparators_of_isClean lenient behindMark rfl clean).2 noDigit
      refine ⟨text.length, rfl, ?_⟩
      rw [read, LiteralError.noDigits, length, Nat.cast_add]
      rfl
    · exact readLiteral_withSeparators_of_stopsWith lenient behindMark split clean stops

theorem separators_carry_no_meaning_before_bad_digit :
    let counts : Nat → Nat := fun n => if n = 2 then 1 else if n = 4 then 2 else 0
    (∀ n < digitsStart "0o798".toList, counts n = 0) ∧
      Text.withSeparators counts 0 "0o798".toList = "0o_79__8".toList ∧
      ∃ offset : Nat, (3 : Int) = offset ∧
        readLiteral (Text.withSeparators counts 0 "0o798".toList) {} =
          .error ⟨"0o_79__8".toList, offset + Text.separatorsBefore counts offset,
            .malformed .octal (some ['9']) none⟩ := by
  intro counts
  have behindMark : ∀ n < digitsStart "0o798".toList, counts n = 0 := by decide
  have read : readLiteral "0o798".toList {} = .error (.badCharacter "0o798".toList 3 .octal '9') := by
    decide
  have lenient : ({} : Options).separators = .lenient := rfl
  have moved := (separators_carry_no_meaning "0o798".toList lenient behindMark).2.2 _ read
  exact ⟨behindMark, by decide, moved⟩

end ScriptLiterals
