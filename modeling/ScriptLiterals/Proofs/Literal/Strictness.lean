import ScriptLiterals.Proofs.Literal.FirstFault

/-!
Stricter options. A literal that they accept has the same value under looser ones, and a literal that
has a value under others only is refused for one of the three things that options decide.

Main statements: `readLiteral_of_isAtLeastAsStrict` and `isDueToStrictness_of_readLiteral`.
-/

namespace ScriptLiterals

structure Options.IsAtLeastAsStrict (options looser : Options) : Prop where
  width : options.width.bits ≤ looser.width.bits
  separators : options.separators = .strict ∨ looser.separators = .lenient
  leadingZeros : options.leadingZeros = false ∨ looser.leadingZeros = true

/-- The errors of a text that has `value` under looser options. -/
inductive LiteralError.IsDueToStrictness (text : Text) (options looser : Options) (value : Int) :
    LiteralError → Prop
  | width (offset : Nat) (narrower : options.width.bits < looser.width.bits)
      (exceeds : options.width.maximum < value) :
      IsDueToStrictness text options looser value
        (.overflow text offset (literalRadix text) options.width.bits)
  | separator (offset : Nat) (strict : options.separators = .strict)
      (lenient : looser.separators = .lenient) :
      IsDueToStrictness text options looser value
        (.badCharacter text offset (literalRadix text) '_')
  | leadingZero (offset : Nat) (decimal : literalRadix text = .decimal)
      (refused : options.leadingZeros = false) (allowed : looser.leadingZeros = true) :
      IsDueToStrictness text options looser value (.leadingZero text offset)

variable {text seen rest behind : Text} {radix : Radix} {options looser : Options} {c : Char}
  {e : LiteralError} {value : Int}

theorem Width.maximum_mono {width wider : Width} (narrower : width.bits ≤ wider.bits) :
    width.maximum ≤ wider.maximum := by
  have power : 2 ^ (width.bits - 1) ≤ 2 ^ (wider.bits - 1) :=
    Nat.pow_le_pow_right (by decide) (Nat.sub_le_sub_right narrower 1)
  rw [Width.maximum_eq, Width.maximum_eq]
  exact_mod_cast Int.sub_le_sub_right (Int.ofNat_le.mpr power) 1

theorem IsClean.of_isAtLeastAsStrict (stricter : options.IsAtLeastAsStrict looser)
    (clean : IsClean radix options seen rest) : IsClean radix looser seen rest where
  characters := clean.characters
  separated := by
    intro strict
    apply clean.separated
    apply stricter.separators.resolve_right
    rw [strict]
    decide
  noLeadingZero := by
    intro refused
    apply clean.noLeadingZero
    apply stricter.leadingZeros.resolve_right
    rw [refused]
    decide
  bounded := le_trans clean.bounded (Width.maximum_mono stricter.width)

theorem Radix.value_le_whole (seen behind : Text) (digit : radix.IsDigit c) :
    radix.value (seen.withoutSeparators ++ [c]) ≤
      radix.value (Text.withoutSeparators (seen ++ c :: behind)) := by
  calc
    radix.value (seen.withoutSeparators ++ [c]) ≤
        radix.value ((seen.withoutSeparators ++ [c]) ++ behind.withoutSeparators) :=
      radix.value_le_append ..
    _ = radix.value (Text.withoutSeparators (seen ++ c :: behind)) := by
      rw [List.append_cons seen, Text.withoutSeparators_append, Text.withoutSeparators_append,
        Text.withoutSeparators_digit digit]

theorem readLiteral_of_isAtLeastAsStrict (stricter : options.IsAtLeastAsStrict looser)
    (read : readLiteral text options = .ok value) : readLiteral text looser = .ok value := by
  obtain ⟨rfl, clean, hasDigit⟩ := region_of_readLiteral_eq_ok (Radix.marked_detect text) read
  exact (readLiteral_of_isClean rfl rfl (clean.of_isAtLeastAsStrict stricter)).1 hasDigit

theorem StopsWith.isDueToStrictness {start : Nat}
    (clean : IsClean (literalRadix text) looser (seen ++ c :: behind) [])
    (stops : StopsWith text (literalRadix text) options start seen behind c e) :
    e.IsDueToStrictness text options looser
      ((literalRadix text).value (Text.withoutSeparators (seen ++ c :: behind))) := by
  -- where the looser options agree, reading stops with them too, and the region has a fault for them
  cases stops with
  | separator strict misplaced =>
    refine .separator _ strict ?_
    cases policy : looser.separators with
    | lenient => rfl
    | strict =>
      have stops : StopsWith text (literalRadix text) looser start seen behind '_' _ :=
        .separator policy misplaced
      exact absurd clean stops.not_isClean_whole
  | character regular noDigit =>
    have stops : StopsWith text (literalRadix text) looser start seen behind c _ :=
      .character regular noDigit
    exact absurd clean stops.not_isClean_whole
  | leadingZero digit decimal refused first =>
    refine .leadingZero _ decimal refused ?_
    cases allowed : looser.leadingZeros with
    | true => rfl
    | false =>
      have stops : StopsWith text (literalRadix text) looser start seen behind c _ :=
        .leadingZero digit decimal allowed first
      exact absurd clean stops.not_isClean_whole
  | overflow digit allowed exceeds =>
    have grows := Radix.value_le_whole seen behind digit
    have exceeds : options.width.maximum <
        (literalRadix text).value (Text.withoutSeparators (seen ++ c :: behind)) := by omega
    refine .width _ ?_ exceeds
    by_contra wide
    have := Width.maximum_mono (Nat.le_of_not_lt wide)
    have := clean.bounded
    omega

theorem isDueToStrictness_of_readLiteral (refused : readLiteral text options = .error e)
    (read : readLiteral text looser = .ok value) :
    e.IsDueToStrictness text options looser value := by
  obtain ⟨rfl, clean, hasDigit⟩ := region_of_readLiteral_eq_ok (Radix.marked_detect text) read
  rcases region_of_readLiteral_eq_error (Radix.marked_detect text) refused with
    ⟨-, -, noDigit⟩ | ⟨before, c, behind, split, -, stops⟩
  · exact absurd noDigit hasDigit
  · rw [split] at clean ⊢
    exact stops.isDueToStrictness clean

end ScriptLiterals
