import ScriptLiterals.Proofs.Conversion.Place
import ScriptLiterals.Proofs.Source.Inside

/-!
Scripts that differ only inside of strings, comments and identifiers are converted alike.

Main statement: `inside_changes_nothing`.
-/

namespace ScriptLiterals.Conversion

variable {source source' : Text}

/-- What is inside of strings, comments and identifiers has no influence: an exchange of characters
there, of which neither the old nor the new one can end the region or a line, leaves the tokens, the
values and the errors as they are. -/
theorem inside_changes_nothing (differs : DiffersInside (lexemes source) source') :
    Token.ofSource source' = Token.ofSource source ∧ ∀ options,
      (ofSource source' options).values = (ofSource source options).values ∧
      (ofSource source' options).errors =
        (ofSource source options).errors.map fun e => { e with source := source' } := by
  have tokens := Token.ofSource_of_differsInside differs
  have sameIntegers : integers source' = integers source := by rw [integers, integers, tokens]
  refine ⟨tokens, ?_⟩
  intro options
  refine ⟨by rw [ofSource, ofSource, sameIntegers], ?_⟩
  simp only [ofSource, sameIntegers, List.map_filterMap]
  congr 1
  funext token
  exact error?_within source source' options token

theorem inside_changes_nothing_around_literal :
    DiffersInside (lexemes "'\\a1'/*2*/b3 0o9//4".toList) "'\\b0'/*x*/b_ 0o9//*".toList ∧
      (ofSource "'\\b0'/*x*/b_ 0o9//*".toList).errors.map (·.span) =
        [⟨⟨1, 16, 15⟩, ⟨1, 17, 16⟩⟩] := by
  have regions : lexemes "'\\a1'/*2*/b3 0o9//4".toList =
      [⟨.string, "'\\a1'".toList⟩, ⟨.blockComment, "/*2*/".toList⟩, ⟨.identifier, "b3".toList⟩,
        ⟨.other, " ".toList⟩, ⟨.number .integer, "0o9".toList⟩, ⟨.lineComment, "//4".toList⟩] := by
    decide +kernel
  have differs : DiffersInside (lexemes "'\\a1'/*2*/b3 0o9//4".toList)
      "'\\b0'/*x*/b_ 0o9//*".toList := by
    rw [regions]
    exact .cons "'\\b0'".toList (by decide) <| .cons "/*x*/".toList (by decide) <|
      .cons "b_".toList (by decide) <| .cons " ".toList (by decide) <|
      .cons "0o9".toList (by decide) <| .cons "//*".toList (by decide) differsInside_nil
  obtain ⟨-, converts⟩ := inside_changes_nothing differs
  refine ⟨differs, ?_⟩
  rw [(converts {}).2]
  decide +kernel

end ScriptLiterals.Conversion
