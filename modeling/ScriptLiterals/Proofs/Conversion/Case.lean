import ScriptLiterals.Conversion
import ScriptLiterals.Proofs.Literal.Case

/-!
Converting a script in lower case. Tokens, values and errors are those of the script, with what they
quote of it in lower case, and so the case of no letter matters.

Main statement: `case_changes_nothing`.
-/

namespace ScriptLiterals

def LocatedError.lowered (e : LocatedError) : LocatedError :=
  ⟨e.error.lowered, e.span, Text.lowered e.source⟩

namespace Conversion

def lowered (conversion : Conversion) : Conversion :=
  ⟨conversion.values.map (Prod.map Token.lowered id),
    conversion.errors.map LocatedError.lowered⟩

theorem spanIn_lowered (e : LiteralError) (token : Token) :
    e.lowered.spanIn token.lowered = e.spanIn token := by
  rcases e with ⟨text, offset, fault⟩
  cases fault <;> rfl

theorem value?_lowered (options : Options) (token : Token) :
    value? options token.lowered = (value? options token).map (Prod.map Token.lowered id) := by
  have read : readLiteral token.lowered.text options =
      (readLiteral token.text options).mapError LiteralError.lowered := readLiteral_lowered ..
  rw [value?, value?, read]
  cases readLiteral token.text options <;> rfl

theorem error?_lowered (source : Text) (options : Options) (token : Token) :
    error? (Text.lowered source) options token.lowered =
      (error? source options token).map LocatedError.lowered := by
  have read : readLiteral token.lowered.text options =
      (readLiteral token.text options).mapError LiteralError.lowered := readLiteral_lowered ..
  rw [error?, error?, read]
  cases readLiteral token.text options with
  | ok value => rfl
  | error e =>
    change some _ = some _
    rw [spanIn_lowered, LocatedError.lowered]

theorem integers_lowered (source : Text) :
    integers (Text.lowered source) = (integers source).map Token.lowered := by
  rw [integers, integers, Token.ofSource_lowered, List.filter_map]
  rfl

theorem ofSource_lowered (source : Text) (options : Options) :
    ofSource (Text.lowered source) options = (ofSource source options).lowered := by
  have values : value? options ∘ Token.lowered =
      fun token => (value? options token).map (Prod.map Token.lowered id) :=
    funext (value?_lowered options)
  have errors : error? (Text.lowered source) options ∘ Token.lowered =
      fun token => (error? source options token).map LocatedError.lowered :=
    funext (error?_lowered source options)
  simp only [ofSource, lowered, integers_lowered, List.filterMap_map, List.map_filterMap, values,
    errors]

/-- With any of its letters in the other case a script has the same tokens at the same places, they
have the same values, and its errors are the same at the same places; only what they quote of the
script may differ, and that in case alone. So it is with a literal that is read alone. -/
theorem case_changes_nothing (source : Text) (chosen : Nat → Bool) :
    let other := Text.recased chosen source
    (Token.ofSource other).map Token.lowered = (Token.ofSource source).map Token.lowered ∧
      ∀ options,
        (ofSource other options).lowered = (ofSource source options).lowered ∧
        (readLiteral other options).mapError LiteralError.lowered =
          (readLiteral source options).mapError LiteralError.lowered := by
  intro other
  have alike : Text.lowered other = Text.lowered source := Text.lowered_recased chosen source
  constructor
  · rw [← Token.ofSource_lowered, alike, Token.ofSource_lowered]
  · intro options
    constructor
    · rw [← ofSource_lowered, alike, ofSource_lowered]
    · rw [← readLiteral_lowered, alike, readLiteral_lowered]

end Conversion
end ScriptLiterals
