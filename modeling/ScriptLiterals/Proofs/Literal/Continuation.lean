import ScriptLiterals.Proofs.Literal.Fault
import ScriptLiterals.Proofs.Literal.FirstFault

/-!
Literals that go on. The first fault of a text is a fault of every text that begins with it, so the
error stays; only missing digits and a separator at the end may be mended by what follows.

Main statement: `failed_stays_failed`.
-/

namespace ScriptLiterals

/-- An error that more text may mend: there are no digits yet, or a separator is the last character. -/
inductive LiteralError.IsMendable (e : LiteralError) : Prop
  | noDigits (radix : Radix) (wording : Option Text)
      (missing : e.fault = .malformed radix none wording)
  | separator (radix : Radix) (wording : Option Text)
      (misplaced : e.fault = .malformed radix (some ['_']) wording)
      (last : e.offset + 1 = e.text.length)

variable {text seen rest behind : Text} {radix : Radix} {options : Options} {c : Char}
  {e : LiteralError} {start : Nat}

theorem Radix.Separated.append_rest (separated : radix.Separated seen rest) (more : Text) :
    radix.Separated seen (rest ++ more) := by
  intro before behind same
  have ⟨digit, goesOn⟩ := separated before behind same
  refine ⟨digit, ?_⟩
  rw [← List.append_assoc]
  exact List.append_ne_nil_of_left_ne_nil goesOn more

theorem IsClean.append_rest (clean : IsClean radix options seen rest) (more : Text) :
    IsClean radix options seen (rest ++ more) where
  characters := clean.characters
  separated := fun strict => (clean.separated strict).append_rest more
  noLeadingZero := clean.noLeadingZero
  bounded := clean.bounded

theorem StopsWith.ne_zero_of_nil (stops : StopsWith text radix options start [] rest c e) :
    c ≠ '0' := by
  rintro rfl
  have digit : radix.IsDigit '0' := by cases radix <;> decide
  cases stops with
  | character regular noDigit => exact noDigit digit
  | leadingZero digit decimal refused first => simp [firstDigit?] at first
  | overflow digit allowed exceeds =>
    have zero : radix.value ['0'] = 0 := by cases radix <;> decide
    have nonneg := options.width.maximum_nonneg
    rw [Text.withoutSeparators_nil, List.nil_append, zero] at exceeds
    omega

theorem Radix.detect_append {d : Char} (settled : d = '0' → rest ≠ []) (more : Text) :
    Radix.detect (d :: (rest ++ more)) = Radix.detect (d :: rest) := by
  by_cases zero : d = '0'
  · obtain ⟨c, rest, rfl⟩ := List.exists_cons_of_ne_nil (settled zero)
    rw [zero]
    rfl
  · rw [Radix.detect_plain, Radix.detect_plain]
    · intro radix c letter region same
      exact zero (List.cons.inj same).1
    · intro radix c letter region same
      exact zero (List.cons.inj same).1

theorem StopsWith.detect_append (split : text.drop (digitsStart text) = seen ++ c :: behind)
    (stops : StopsWith text (literalRadix text) options (digitsStart text) seen behind c e)
    (more : Text) : Radix.detect (text ++ more) = Radix.detect text := by
  cases text with
  | nil => simp at split
  | cons d rest =>
    apply Radix.detect_append
    rintro rfl rfl
    obtain ⟨rfl, same⟩ : seen = [] ∧ ['0'] = c :: behind := by
      cases seen with
      | nil => exact ⟨rfl, split⟩
      | cons a seen =>
        have := congrArg List.length split
        simp [digitsStart, Radix.detect] at this
    exact stops.ne_zero_of_nil (List.cons.inj same).1.symm

theorem StopsWith.append (more : Text) (length : text.length = start + seen.length + 1 + behind.length)
    (settled : ¬ e.IsMendable) (stops : StopsWith text radix options start seen behind c e) :
    StopsWith (text ++ more) radix options start seen (behind ++ more) c
      ⟨text ++ more, e.offset, e.fault.quoting (text ++ more)⟩ := by
  cases stops with
  | separator strict misplaced =>
    apply StopsWith.separator strict
    apply misplaced.imp_right
    rintro rfl
    have last : ((start + seen.length : Nat) : Int) + 1 = text.length := by
      rw [length, List.length_nil, Nat.add_zero]
      rfl
    exact absurd (.separator radix none rfl last) settled
  | character regular noDigit => exact .character regular noDigit
  | leadingZero digit decimal refused first => exact .leadingZero digit decimal refused first
  | overflow digit allowed exceeds => exact .overflow digit allowed exceeds

theorem readLiteral_append_of_stopsWith (more : Text) (settled : ¬ e.IsMendable)
    (split : text.drop (digitsStart text) = seen ++ c :: behind)
    (clean : IsClean (literalRadix text) options seen (c :: behind))
    (stops : StopsWith text (literalRadix text) options (digitsStart text) seen behind c e) :
    readLiteral (text ++ more) options =
      .error ⟨text ++ more, e.offset, e.fault.quoting (text ++ more)⟩ := by
  have detected := stops.detect_append split more
  have count := congrArg List.length split
  rw [List.length_drop, List.length_append, List.length_cons] at count
  have length : text.length = digitsStart text + seen.length + 1 + behind.length := by omega
  have region : (text ++ more).drop (digitsStart text) = seen ++ c :: (behind ++ more) := by
    rw [List.drop_append_of_le_length (by omega), split, List.append_assoc, List.cons_append]
  exact readLiteral_of_stopsWith detected region (clean.append_rest more)
    (stops.append more length settled)

/-- A failed literal stays failed whatever follows it, with an error of the same kind at the same
offset, unless it has no digits yet or its fault is a separator at its end. An overflow, then, becomes
neither a value nor another error. -/
theorem failed_stays_failed {text : Text} {options : Options} {e : LiteralError}
    (failed : readLiteral text options = .error e) (more : Text) :
    (¬ e.IsMendable → readLiteral (text ++ more) options =
      .error ⟨text ++ more, e.offset, e.fault.quoting (text ++ more)⟩) ∧
    ∀ radix width, e.fault = .overflow radix width → readLiteral (text ++ more) options =
      .error ⟨text ++ more, e.offset, .overflow radix width⟩ := by
  have stays : ¬ e.IsMendable → readLiteral (text ++ more) options =
      .error ⟨text ++ more, e.offset, e.fault.quoting (text ++ more)⟩ := by
    intro settled
    rcases region_of_readLiteral_eq_error (Radix.marked_detect text) failed with
      ⟨rfl, -⟩ | ⟨before, c, behind, split, clean, stops⟩
    · exact absurd (.noDigits _ none rfl) settled
    · exact readLiteral_append_of_stopsWith more settled split clean stops
  refine ⟨stays, ?_⟩
  intro radix width overflow
  have settled : ¬ e.IsMendable := by
    intro mendable
    cases mendable with
    | noDigits _ _ missing => rw [overflow] at missing; contradiction
    | separator _ _ misplaced => rw [overflow] at misplaced; contradiction
  rw [stays settled, overflow]
  rfl

theorem failed_stays_failed_at_leading_zero :
    let options : Options := ⟨.w8, .strict, false⟩
    readLiteral "0_7".toList options = .error (.leadingZero "0_7".toList 0) ∧
      readLiteral ("0_7".toList ++ "_x999".toList) options =
        .error (.leadingZero "0_7_x999".toList 0) := by
  intro options
  have failed : readLiteral "0_7".toList options = .error (.leadingZero "0_7".toList 0) := by decide
  have settled : ¬ (LiteralError.leadingZero "0_7".toList 0).IsMendable := by
    intro mendable
    cases mendable with
    | noDigits _ _ missing => simp [LiteralError.leadingZero] at missing
    | separator _ _ misplaced => simp [LiteralError.leadingZero] at misplaced
  exact ⟨failed, (failed_stays_failed failed "_x999".toList).1 settled⟩

end ScriptLiterals
