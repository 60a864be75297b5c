import ScriptLiterals.Proofs.Literal.Reading
import ScriptLiterals.Proofs.Source.Character

/-!
Which texts are literals. Reading accepts exactly what the grammar allows and returns its positional
value.

Main statement: `readLiteral_ok_iff_isLiteral`.
-/

namespace ScriptLiterals

section Grouping

variable {radix : Radix} {region : Text}

theorem Radix.Separated.tail {c d : Char} {rest : Text}
    (separated : radix.Separated (c :: d :: rest) []) (digit : radix.IsDigit d) :
    radix.Separated (d :: rest) [] := by
  intro before behind same
  cases before with
  | nil =>
    obtain ⟨rfl, -⟩ := List.cons.inj same
    exact absurd digit radix.not_isDigit_separator
  | cons e before =>
    simpa using separated (c :: e :: before) behind (by simpa using same)

theorem Radix.Separated.drop_two {c : Char} {rest : Text}
    (separated : radix.Separated (c :: '_' :: rest) []) : radix.Separated rest [] := by
  intro before behind same
  have inner := separated (c :: '_' :: before) behind (by simp [same])
  cases before with
  | nil => simp [radix.not_isDigit_separator] at inner
  | cons e before => simpa using inner

theorem Radix.Separated.isGrouped : ∀ {region : Text}, region ≠ [] →
    (∀ c ∈ region, c = '_' ∨ radix.IsDigit c) → radix.Separated region [] → radix.IsGrouped region
  | [], nonempty, _, _ => absurd rfl nonempty
  | c :: rest, _, characters, separated => by
    have digit : radix.IsDigit c := by
      rcases characters c List.mem_cons_self with rfl | digit
      · have := (separated [] rest rfl).1
        simp at this
      · exact digit
    -- a separator behind `c` ends its group, and a digit belongs to it
    match rest with
    | [] => exact ⟨[[c]], by simp, by simpa using digit, by simp [Text.joined]⟩
    | d :: rest =>
      by_cases separator : d = '_'
      · subst d
        have more : rest ≠ [] := by simpa using (separated [c] rest rfl).2
        obtain ⟨groups, some, digits, rfl⟩ := separated.drop_two.isGrouped more
          fun d member => characters d (by simp [member])
        refine ⟨[c] :: groups, by simp, ?_, ?_⟩
        · simpa [digit] using digits
        · simp [Text.joined, List.intercalate_cons_of_ne_nil some]
      · have digit' : radix.IsDigit d := by
          rcases characters d (by simp) with same | digit'
          · exact absurd same separator
          · exact digit'
        obtain ⟨groups, some, digits, same⟩ := (separated.tail digit').isGrouped (by simp)
          fun e member => characters e (by simp [member])
        cases groups with
        | nil => exact absurd rfl some
        | cons group groups =>
          refine ⟨(c :: group) :: groups, by simp, ?_, ?_⟩
          · intro g member
            rcases List.mem_cons.mp member with rfl | member
            · have := digits group List.mem_cons_self
              exact ⟨by simp, by simpa [digit] using this.2⟩
            · exact digits g (List.mem_cons_of_mem _ member)
          · rw [same]
            cases groups <;> simp [Text.joined]

theorem Radix.separated_of_digits {group rest : Text} (digits : ∀ c ∈ group, radix.IsDigit c) :
    radix.Separated group rest := by
  intro before behind same
  exact absurd (digits '_' (by simp [same])) radix.not_isDigit_separator

theorem Radix.Separated.join {group rest : Text} (nonempty : group ≠ [])
    (digits : ∀ c ∈ group, radix.IsDigit c) (more : rest ≠ []) (separated : radix.Separated rest []) :
    radix.Separated (group ++ '_' :: rest) [] := by
  intro before behind same
  -- the separator in question is the new one or in `rest`, since the group has none
  rcases List.append_eq_append_iff.mp same with ⟨inner, rfl, split⟩ | ⟨inner, rfl, split⟩
  · cases inner with
    | nil =>
      obtain ⟨-, rfl⟩ := List.cons.inj split
      refine ⟨⟨group.getLast nonempty, ?_, digits _ (List.getLast_mem nonempty)⟩, by simpa using more⟩
      simp [List.getLast?_eq_getLast_of_ne_nil nonempty]
    | cons c inner =>
      obtain ⟨-, rfl⟩ := List.cons.inj split
      obtain ⟨⟨d, last, digit⟩, behind⟩ := separated inner behind rfl
      refine ⟨⟨d, ?_, digit⟩, behind⟩
      cases inner with
      | nil => simp at last
      | cons e inner => simpa using last
  · cases inner with
    | nil =>
      obtain ⟨-, rfl⟩ := List.cons.inj split
      refine ⟨⟨before.getLast (by simpa using nonempty), ?_, ?_⟩, by simpa using more⟩
      · simp [List.getLast?_eq_getLast_of_ne_nil (by simpa using nonempty)]
      · exact digits _ (by simp)
    | cons c inner =>
      obtain ⟨rfl, -⟩ := List.cons.inj split
      exact absurd (digits '_' (by simp)) radix.not_isDigit_separator

theorem Radix.IsGrouped.separated (grouped : radix.IsGrouped region) :
    radix.Separated region [] := by
  obtain ⟨groups, some, digits, rfl⟩ := grouped
  induction groups with
  | nil => exact absurd rfl some
  | cons group groups ih =>
    obtain ⟨nonempty, own⟩ := digits group List.mem_cons_self
    cases groups with
    | nil => simpa [Text.joined] using radix.separated_of_digits own
    | cons next groups =>
      have inner := ih (by simp) fun g member => digits g (List.mem_cons_of_mem _ member)
      have more : Text.joined ['_'] (next :: groups) ≠ [] := by
        have := (digits next (by simp)).1
        cases groups <;> simp [Text.joined, this]
      simpa [Text.joined] using Radix.Separated.join nonempty own more inner

end Grouping

theorem isClean_whole_iff (radix : Radix) (options : Options) (region : Text) :
    IsClean radix options region [] ∧ region.withoutSeparators ≠ [] ↔
      IsDigitRegion radix options region ∧
        (radix.value region.withoutSeparators : Int) ≤ options.width.maximum := by
  constructor
  · rintro ⟨clean, hasDigit⟩
    have nonempty : region ≠ [] := by
      rintro rfl
      exact hasDigit rfl
    exact ⟨⟨clean.characters, hasDigit,
      fun strict => (clean.separated strict).isGrouped nonempty clean.characters,
      clean.noLeadingZero⟩, clean.bounded⟩
  · rintro ⟨allowed, bounded⟩
    exact ⟨⟨allowed.characters, fun strict => (allowed.grouped strict).separated,
      allowed.noLeadingZero, bounded⟩, allowed.hasDigit⟩

theorem Width.maximum_eq (width : Width) : width.maximum = 2 ^ (width.bits - 1) - 1 := by
  cases width <;> rfl

theorem Reading.after_nil (radix : Radix) (start : Nat) : Reading.after radix start [] = {} := rfl

theorem readLiteral_of_marked {text : Text} (options : Options) {radix : Radix} {region : Text}
    (marked : Marked text radix region) :
    readLiteral text options =
      match Reading.takeAll text radix options {} (Radix.detect text).2 region with
      | .error e => .error e
      | .ok reading =>
        match reading.first with
        | none => .error (.noDigits text radix)
        | some _ => .ok reading.value := by
  obtain ⟨rfl, rfl⟩ := (Radix.marked_iff ..).mp marked
  rfl

/-- What reading a literal comes to: a value, if its region is clean and has a digit, else one of the
errors of a stop or the error of a literal without digits. -/
theorem readLiteral_cases (text : Text) (options : Options) {radix : Radix} {region : Text}
    (marked : Marked text radix region) :
    (readLiteral text options = .ok (radix.value region.withoutSeparators) ∧
      IsClean radix options region [] ∧ region.withoutSeparators ≠ []) ∨
    (readLiteral text options = .error (.noDigits text radix) ∧
      IsClean radix options region [] ∧ region.withoutSeparators = []) ∨
    ∃ before c behind e, region = before ++ c :: behind ∧
      IsClean radix options before (c :: behind) ∧ readLiteral text options = .error e ∧
      StopsWith text radix options (Radix.detect text).2 before behind c e := by
  have run := Reading.takeAll_after text (Radix.detect text).2 (isClean_nil radix options region)
  rw [Reading.after_nil, List.length_nil, Nat.add_zero, List.nil_append] at run
  rw [readLiteral_of_marked options marked]
  rcases run with ⟨read, clean⟩ | ⟨before, c, behind, e, split, clean, read, stops⟩
  · rw [read]
    cases first : firstDigit? (Radix.detect text).2 region with
    | none =>
      refine .inr (.inl ⟨by simp [Reading.after, first], clean, ?_⟩)
      exact (firstDigit?_eq_none_iff _ _).mp first
    | some found =>
      refine .inl ⟨by simp [Reading.after, first], clean, ?_⟩
      rw [Ne, ← firstDigit?_eq_none_iff (Radix.detect text).2, first]
      simp
  · rw [read]
    exact .inr (.inr ⟨before, c, behind, e, split, clean, rfl, stops⟩)

theorem region_of_readLiteral_eq_ok {text region : Text} {radix : Radix} {options : Options}
    {value : Int} (marked : Marked text radix region) (read : readLiteral text options = .ok value) :
    value = radix.value region.withoutSeparators ∧ IsClean radix options region [] ∧
      region.withoutSeparators ≠ [] := by
  rcases readLiteral_cases text options marked with
    ⟨accepted, clean, hasDigit⟩ | ⟨refused, -⟩ | ⟨_, _, _, _, -, -, refused, -⟩
  · rw [read] at accepted
    exact ⟨Except.ok.inj accepted, clean, hasDigit⟩
  · rw [read] at refused
    contradiction
  · rw [read] at refused
    contradiction

theorem region_of_readLiteral_eq_error {text region : Text} {radix : Radix} {options : Options}
    {e : LiteralError} (marked : Marked text radix region)
    (read : readLiteral text options = .error e) :
    (e = .noDigits text radix ∧ IsClean radix options region [] ∧ region.withoutSeparators = []) ∨
    ∃ before c behind, region = before ++ c :: behind ∧
      IsClean radix options before (c :: behind) ∧
      StopsWith text radix options (Radix.detect text).2 before behind c e := by
  rcases readLiteral_cases text options marked with
    ⟨accepted, -⟩ | ⟨refused, clean, noDigit⟩ | ⟨before, c, behind, _, split, clean, refused, stops⟩
  · rw [read] at accepted
    contradiction
  · rw [read] at refused
    exact .inl ⟨Except.error.inj refused, clean, noDigit⟩
  · rw [read] at refused
    obtain rfl := Except.error.inj refused
    exact .inr ⟨before, c, behind, split, clean, stops⟩

theorem Marked.unique {text region region' : Text} {radix radix' : Radix}
    (marked : Marked text radix region) (marked' : Marked text radix' region') :
    radix = radix' ∧ region = region' := by
  obtain ⟨rfl, rfl⟩ := (Radix.marked_iff ..).mp marked
  obtain ⟨rfl, rfl⟩ := (Radix.marked_iff ..).mp marked'
  exact ⟨rfl, rfl⟩

theorem isLiteral_iff_of_marked {text : Text} (options : Options) {radix : Radix} {region : Text}
    (marked : Marked text radix region) (value : Int) :
    IsLiteral text options value ↔
      (IsClean radix options region [] ∧ region.withoutSeparators ≠ []) ∧
        value = radix.value region.withoutSeparators := by
  rw [isClean_whole_iff, Width.maximum_eq]
  constructor
  · rintro ⟨radix', region', marked', allowed, rfl, bounded⟩
    obtain ⟨rfl, rfl⟩ := marked.unique marked'
    exact ⟨⟨allowed, bounded⟩, rfl⟩
  · rintro ⟨⟨allowed, bounded⟩, rfl⟩
    exact ⟨radix, region, marked, allowed, rfl, bounded⟩

def LiteralError.IsRegular (e : LiteralError) : Prop :=
  (∃ radix character wording, e.fault = .malformed radix character wording) ∨
    ∃ radix width, e.fault = .overflow radix width

theorem StopsWith.isRegular {text : Text} {radix : Radix} {options : Options} {start : Nat}
    {seen rest : Text} {c : Char} {e : LiteralError}
    (stops : StopsWith text radix options start seen rest c e) : e.IsRegular := by
  cases stops with
  | separator => exact .inl ⟨_, _, _, rfl⟩
  | character => exact .inl ⟨_, _, _, rfl⟩
  | leadingZero => exact .inl ⟨_, _, _, rfl⟩
  | overflow => exact .inr ⟨_, _, rfl⟩

theorem Radix.IsDigit.isWordChar {radix : Radix} {c : Char} (digit : radix.IsDigit c) :
    isWordChar c = true := by
  have ascii : c.toNat < 128 := by
    by_contra high
    exact Radix.not_isDigit_of_le (Nat.le_of_not_lt high) digit
  have table : ∀ n : Fin 128, radix.IsDigit (Char.ofNat n) →
      ScriptLiterals.isWordChar (Char.ofNat n) = true := by
    cases radix <;> decide +kernel
  simpa using table ⟨c.toNat, ascii⟩ (by simpa using digit)

theorem Radix.isWordChar_of_mem_letters {radix : Radix} {c : Char} (letter : c ∈ radix.letters) :
    isWordChar c = true := by
  have table : radix.letters.all ScriptLiterals.isWordChar = true := by cases radix <;> decide
  exact List.all_eq_true.mp table c letter

theorem isWordChar_of_readLiteral {text : Text} {options : Options} {value : Int}
    (read : readLiteral text options = .ok value) : ∀ c ∈ text, isWordChar c = true := by
  obtain ⟨radix, region, marked⟩ := Radix.exists_marked text
  have clean := (region_of_readLiteral_eq_ok marked read).2.1
  have inside : ∀ c ∈ region, isWordChar c = true := by
    intro c member
    rcases clean.characters c member with rfl | digit
    · rfl
    · exact digit.isWordChar
  cases marked with
  | plain _ => exact inside
  | mark region letter =>
    intro c member
    rcases List.mem_cons.mp member with rfl | member
    · rfl
    · rcases List.mem_cons.mp member with rfl | member
      · exact Radix.isWordChar_of_mem_letters letter
      · exact inside c member

theorem bounds_of_readLiteral {text : Text} {options : Options} {value : Int}
    (read : readLiteral text options = .ok value) : 0 ≤ value ∧ value ≤ options.width.maximum := by
  rcases Radix.exists_marked text with ⟨radix, region, marked⟩
  rcases region_of_readLiteral_eq_ok marked read with ⟨rfl, clean, -⟩
  exact ⟨Int.natCast_nonneg _, clean.bounded⟩

/-- Reading accepts the texts of the grammar with their positional values; any other text is malformed
or does not fit. -/
theorem readLiteral_ok_iff_isLiteral (text : Text) (options : Options) :
    (∀ value, readLiteral text options = .ok value ↔ IsLiteral text options value) ∧
      ((¬ ∃ value, IsLiteral text options value) →
        ∃ e, readLiteral text options = .error e ∧ e.IsRegular) := by
  obtain ⟨radix, region, marked⟩ := Radix.exists_marked text
  rcases readLiteral_cases text options marked with
    ⟨read, clean, hasDigit⟩ | ⟨read, clean, noDigit⟩ |
      ⟨before, c, behind, e, split, clean, read, stops⟩
  · have accepted : ∀ value, IsLiteral text options value ↔
        value = radix.value region.withoutSeparators := by
      intro value
      rw [isLiteral_iff_of_marked options marked]
      exact ⟨fun h => h.2, fun h => ⟨⟨clean, hasDigit⟩, h⟩⟩
    refine ⟨fun value => ?_, fun none => absurd ⟨_, (accepted _).mpr rfl⟩ none⟩
    rw [read, accepted, Except.ok.injEq, eq_comm]
  · refine ⟨fun value => ?_, fun _ => ⟨_, read, .inl ⟨_, _, _, rfl⟩⟩⟩
    rw [read, isLiteral_iff_of_marked options marked]
    simp [noDigit]
  · refine ⟨fun value => ?_, fun _ => ⟨e, read, stops.isRegular⟩⟩
    have refused : ¬ IsClean radix options region [] := by
      intro whole
      rw [split, List.append_cons] at whole
      exact stops.not_isClean (by simpa using whole.of_append)
    rw [read, isLiteral_iff_of_marked options marked]
    simp [refused]

example : readLiteral "0x_fF".toList = .ok 255 ∧
    readLiteral "0x_fF".toList ⟨.w64, .strict, true⟩ =
      .error (.badCharacter "0x_fF".toList 2 .hexadecimal '_') := by
  decide

end ScriptLiterals
