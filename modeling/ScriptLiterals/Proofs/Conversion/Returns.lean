import ScriptLiterals.Proofs.Conversion.Rendering
import ScriptLiterals.Proofs.Source.Returns

/-!
A script with carriage returns before some of its line feeds is converted like the script without: the
values and the errors are the same, and so is what is shown of each error.

Main statement: `returns_change_nothing`.
-/

namespace ScriptLiterals

variable {source source' : Text}

namespace LocatedError

/-- The same error on the same line and in the same columns, in a script of which the same lines are
shown. -/
structure SameShown (e e' : LocatedError) : Prop where
  error_eq : e'.error = e.error
  start : e.span.start.SamePlace e'.span.start
  stop : e.span.stop.SamePlace e'.span.stop
  lines_eq : (Text.lines e'.source).map Text.shown = (Text.lines e.source).map Text.shown

variable {e e' : LocatedError}

theorem shownLine_eq_getD (e : LocatedError) :
    e.shownLine = if 1 ≤ e.span.start.line then
      ((Text.lines e.source).map Text.shown)[(e.span.start.line - 1).toNat]?.getD [] else [] := by
  unfold shownLine
  rw [List.getElem?_map]
  cases (Text.lines e.source)[(e.span.start.line - 1).toNat]? <;> rfl

theorem SameShown.render_eq (same : e.SameShown e') (filename : Text) :
    e'.render filename = e.render filename := by
  have headline : e'.headline = e.headline := by
    unfold headline message
    rw [same.error_eq]
  have indent : e'.indent = e.indent := by rw [indent, indent, same.start.line_eq]
  have placeLine : e'.placeLine filename = e.placeLine filename := by
    rw [placeLine, placeLine, indent, same.start.line_eq, same.start.column_eq]
  have numberGutter : e'.numberGutter = e.numberGutter := by
    rw [numberGutter, numberGutter, same.start.line_eq]
  have shownLine : e'.shownLine = e.shownLine := by
    rw [shownLine_eq_getD, shownLine_eq_getD, same.lines_eq, same.start.line_eq]
  have blankGutter : e'.blankGutter = e.blankGutter := by rw [blankGutter, blankGutter, indent]
  have underline : e'.underline = e.underline := by
    rw [underline, underline, same.start.column_eq, same.stop.column_eq]
  rw [LocatedError.render_eq, LocatedError.render_eq, headline, placeLine, indent, numberGutter,
    shownLine, blankGutter, underline]

end LocatedError

namespace Conversion

variable {options : Options} {token token' : Token}

theorem integers_withReturns (noReturn : '\r' ∉ source) (spelled : WithReturns source source') :
    List.Forall₂ (Token.CountsReturns source') (integers source) (integers source') := by
  refine List.rel_filter ?_ (Token.ofSource_withReturns noReturn spelled)
  intro token token' same
  simp only [same.kind_eq]

theorem value?_withReturns (same : token.CountsReturns source' token') :
    Option.Rel (fun converted converted' =>
      converted.1.CountsReturns source' converted'.1 ∧ converted'.2 = converted.2)
      (value? options token) (value? options token') := by
  unfold value?
  rw [same.text_eq]
  cases readLiteral token.text options with
  | ok value => exact .some ⟨same, rfl⟩
  | error e => exact .none

theorem spanIn_samePlace (same : token.CountsReturns source' token') (e : LiteralError) :
    (e.spanIn token).start.SamePlace (e.spanIn token').start ∧
      (e.spanIn token).stop.SamePlace (e.spanIn token').stop := by
  unfold LiteralError.spanIn
  cases e.fault with
  | overflow => exact ⟨same.start.place, same.stop.place⟩
  | _ => exact ⟨same.start.place.advance _, same.start.place.advance _⟩

theorem error?_withReturns (same : token.CountsReturns source' token')
    (lines_eq : (Text.lines source').map Text.shown = (Text.lines source).map Text.shown) :
    Option.Rel LocatedError.SameShown (error? source options token) (error? source' options token') := by
  unfold error?
  rw [same.text_eq]
  cases readLiteral token.text options with
  | ok value => exact .none
  | error e =>
    obtain ⟨start, stop⟩ := spanIn_samePlace same e
    exact .some ⟨rfl, start, stop, lines_eq⟩

theorem errors_withReturns (noReturn : '\r' ∉ source) (spelled : WithReturns source source')
    (options : Options) :
    List.Forall₂ LocatedError.SameShown (ofSource source options).errors
      (ofSource source' options).errors := by
  refine List.rel_filterMap ?_ (integers_withReturns noReturn spelled)
  intro token token' same
  exact error?_withReturns same (spelled.map_shown_lines noReturn)

/-- How lines end does not matter: if a script gets carriage returns before some of its line feeds, its
tokens stay on their lines and in their columns, its literals are converted to the same values, and the
errors of the others are the same and are rendered alike. -/
theorem returns_change_nothing (noReturn : '\r' ∉ source) (spelled : WithReturns source source') :
    List.Forall₂ (Token.CountsReturns source') (Token.ofSource source) (Token.ofSource source') ∧
      ∀ options,
        List.Forall₂ (fun converted converted' =>
            converted.1.CountsReturns source' converted'.1 ∧ converted'.2 = converted.2)
          (ofSource source options).values (ofSource source' options).values ∧
        List.Forall₂ (fun e e' => e'.error = e.error ∧ e.span.start.SamePlace e'.span.start ∧
            e.span.stop.SamePlace e'.span.stop ∧ ∀ filename, e'.render filename = e.render filename)
          (ofSource source options).errors (ofSource source' options).errors := by
  refine ⟨Token.ofSource_withReturns noReturn spelled, ?_⟩
  intro options
  constructor
  · refine List.rel_filterMap ?_ (integers_withReturns noReturn spelled)
    intro token token' same
    exact value?_withReturns same
  · refine (errors_withReturns noReturn spelled options).imp ?_
    intro e e' same
    exact ⟨same.error_eq, same.start, same.stop, same.render_eq⟩

theorem returns_change_nothing_in_string :
    '\r' ∉ "'\\\n'0o9".toList ∧ WithReturns "'\\\n'0o9".toList "'\\\r\n'0o9".toList ∧
      ∃ e, (ofSource "'\\\r\n'0o9".toList).errors = [e] ∧ e.span.start.line = 2 ∧
        e.span.start.column = 4 := by
  have noReturn : '\r' ∉ "'\\\n'0o9".toList := by decide
  have spelled : WithReturns "'\\\n'0o9".toList "'\\\r\n'0o9".toList :=
    (((WithReturns.refl "'0o9".toList).returned).kept '\\').kept '\x27'
  obtain ⟨-, converts⟩ := returns_change_nothing noReturn spelled
  have errors := (converts {}).2
  have first : (ofSource "'\\\n'0o9".toList).errors =
      [⟨.badCharacter "0o9".toList 2 .octal '9', ⟨⟨2, 4, 6⟩, ⟨2, 5, 7⟩⟩, "'\\\n'0o9".toList⟩] := by
    decide +kernel
  rw [first] at errors
  cases errors' : (ofSource "'\\\r\n'0o9".toList).errors with
  | nil =>
    rw [errors'] at errors
    cases errors
  | cons e more =>
    rw [errors'] at errors
    obtain ⟨⟨-, start, -, -⟩, none⟩ := List.forall₂_cons.mp errors
    obtain rfl := List.forall₂_nil_left_iff.mp none
    exact ⟨noReturn, spelled, e, rfl, start.line_eq, start.column_eq⟩

end Conversion
end ScriptLiterals
