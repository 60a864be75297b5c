import ScriptLiterals.Proofs.Conversion.Rendering
import ScriptLiterals.Proofs.Text.Decimal

/-!
How the rendering of an error is laid out: five lines whose gutter is one column wider than the number
of the line, with the carets below the columns of the error.

Main statement: `render_isLaidOut`.
-/

namespace ScriptLiterals

/-- The lines of a rendered error at `line` and `column` that is `width` columns wide. A caret and the
character above it stand in the same place behind the gutter and a blank. -/
structure LocatedError.IsLaidOut (e : LocatedError) (filename : Text) (line column width : Nat)
    (first second third fourth fifth : Text) : Prop where
  message : first = "error: ".toList ++ e.message
  place : second = List.replicate ((Nat.digits 10 line).length + 1) ' ' ++ "--> ".toList ++
    filename ++ ':' :: (Text.ofNat line ++ ':' :: Text.ofNat column)
  blank : third = List.replicate ((Nat.digits 10 line).length + 1) ' ' ++ ['|']
  shown : fourth = Text.ofNat line ++ " | ".toList ++ e.shownLine
  carets : fifth = List.replicate ((Nat.digits 10 line).length + 1) ' ' ++ "| ".toList ++
    (List.replicate (column - 1) ' ' ++ List.replicate width '^')
  arrow : second.idxOf '-' = (Nat.digits 10 line).length + 1
  bars : ∀ text ∈ [third, fourth, fifth], text.idxOf '|' = (Nat.digits 10 line).length + 1
  above : ∀ index, fourth[(Nat.digits 10 line).length + 3 + index]? = e.shownLine[index]?
  under : fifth.idxsOf '^' =
    List.range' ((Nat.digits 10 line).length + 3 + (column - 1)) width

namespace LocatedError

variable {e : LocatedError} {line column width : Nat}

theorem idxOf_behind {c : Char} {front : Text} (absent : c ∉ front) (rest : Text) :
    (front ++ c :: rest).idxOf c = front.length := by
  rw [List.idxOf_append, if_neg absent, List.idxOf_cons_self, Nat.zero_add]

theorem indent_eq (number : e.span.start.line = line) (positive : 0 < line) :
    e.indent = List.replicate ((Nat.digits 10 line).length + 1) ' ' := by
  rw [indent, number, Text.copies, ← Text.length_ofNat positive]
  rfl

theorem underline_eq (start : e.span.start.column = column)
    (stop : e.span.stop.column = column + width) (nonempty : 0 < width) :
    e.underline = List.replicate (column - 1) ' ' ++ List.replicate width '^' := by
  have blanks : (e.span.start.column - 1).toNat = column - 1 := by omega
  have carets : (max 1 (e.span.stop.column - e.span.start.column)).toNat = width := by omega
  rw [underline, Text.copies, Text.copies, blanks, carets]

theorem length_numberGutter (number : e.span.start.line = line) (positive : 0 < line) :
    e.numberGutter.length = (Nat.digits 10 line).length + 3 := by
  rw [numberGutter, number, List.length_append, ← Text.length_ofNat positive]
  rfl

theorem isLaidOut (filename : Text) (number : e.span.start.line = line) (positive : 0 < line)
    (start : e.span.start.column = column) (first : 0 < column)
    (stop : e.span.stop.column = column + width) (nonempty : 0 < width) :
    e.IsLaidOut filename line column width e.headline (e.placeLine filename) (e.indent ++ ['|'])
      (e.numberGutter ++ e.shownLine) (e.blankGutter ++ e.underline) := by
  have indent := indent_eq number positive
  have width' : e.indent.length = (Nat.digits 10 line).length + 1 := by
    rw [indent, List.length_replicate]
  have behindIndent : ∀ {c : Char}, c ≠ ' ' → ∀ rest,
      (e.indent ++ c :: rest).idxOf c = (Nat.digits 10 line).length + 1 := by
    intro c visible rest
    rw [idxOf_behind, width']
    rw [indent, List.mem_replicate]
    exact fun member => visible member.2
  refine
    { message := rfl
      place := by rw [placeLine, indent, number, start]; rfl
      blank := by rw [indent]
      shown := by rw [numberGutter, number]; rfl
      carets := by rw [blankGutter, indent, underline_eq start stop nonempty]
      arrow := ?_
      bars := ?_
      above := ?_
      under := ?_ }
  · rw [placeLine, List.append_assoc, List.append_assoc]
    exact behindIndent (by decide) _
  · have numbered : (e.numberGutter ++ e.shownLine).idxOf '|' = (Nat.digits 10 line).length + 1 := by
      have digits : '|' ∉ Text.ofInt line ++ [' '] := by
        intro bar
        rcases List.mem_append.mp bar with bar | bar
        · exact absurd (isNumberChar_of_mem_ofInt bar) (by decide)
        · exact absurd bar (by decide)
      calc
        _ = ((Text.ofInt line ++ [' ']) ++ '|' :: (' ' :: e.shownLine)).idxOf '|' := by
          rw [numberGutter, number]
          simp
        _ = (Text.ofInt line ++ [' ']).length := idxOf_behind digits _
        _ = (Nat.digits 10 line).length + 1 := by
          rw [List.length_append, ← Text.length_ofNat positive]
          rfl
    have underlined : (e.blankGutter ++ e.underline).idxOf '|' =
        (Nat.digits 10 line).length + 1 := by
      rw [blankGutter, List.append_assoc]
      exact behindIndent (by decide) _
    simpa using ⟨behindIndent (by decide) [], numbered, underlined⟩
  · intro index
    rw [← length_numberGutter number positive, List.getElem?_append_right (Nat.le_add_right _ _),
      Nat.add_sub_cancel_left]
  · rw [← length_numberGutter number positive]
    exact idxsOf_carets (by omega) (by omega) nonempty

end LocatedError

namespace Conversion

variable {source : Text} {options : Options} {e : LocatedError}

/-- A rendered error consists of five lines with the message, the place, an empty gutter, the line of the
script behind its number, and as many carets as the error has columns. The gutter ends in the same
column everywhere, and each caret stands below the character of its column. -/
theorem render_isLaidOut (member : e ∈ (ofSource source options).errors) {filename : Text}
    (named : '\n' ∉ filename) :
    ∃ line column width : Nat, 0 < line ∧ 0 < column ∧ 0 < width ∧ e.span.start.line = line ∧
      e.span.start.column = column ∧ e.span.stop.column = column + width ∧
      ∃ first second third fourth fifth,
        (e.render filename).splitOn '\n' = [first, second, third, fourth, fifth] ∧
          e.IsLaidOut filename line column width first second third fourth fifth := by
  rcases List.mem_filterMap.mp member with ⟨token, integer, found⟩
  have belongs := belongsTo_of_error? integer found
  have placed := belongs.marks.one_le (Token.isExact_of_mem (mem_ofLexemes_of_mem_integers integer))
  have message : '\n' ∉ e.message := by
    rcases error?_eq_some_iff.mp found with ⟨fault, read, rfl⟩
    rcases integer_placed integer with ⟨-, -, -, characters, -⟩
    have noFeed := newline_not_mem_of_isNumberChar characters
    exact (LiteralError.isFaultOf_of_readLiteral read).newline_not_mem_message noFeed
  rcases Int.eq_ofNat_of_zero_le (show 0 ≤ e.span.start.line by omega) with ⟨line, number⟩
  rcases Int.eq_ofNat_of_zero_le (show 0 ≤ e.span.start.column by omega) with ⟨column, start⟩
  rcases Int.eq_ofNat_of_zero_le (show 0 ≤ e.span.stop.column - e.span.start.column from
    Int.sub_nonneg.mpr belongs.nonempty.2.le) with ⟨width, stop⟩
  have wide := belongs.nonempty.2
  refine ⟨line, column, width, by omega, by omega, by omega, number, start, by omega, _, _, _, _, _,
    LocatedError.splitOn_render message named, ?_⟩
  exact LocatedError.isLaidOut filename number (by omega) start (by omega) (by omega) (by omega)

theorem render_isLaidOut_in_tenth_line :
    '\n' ∉ "s".toList ∧ ∃ e ∈ (ofSource "\n\n\n\n\n\n\n\n\n0b2".toList).errors, ∃ first second fourth,
      (e.render "s".toList).splitOn '\n' =
        [first, second, "   |".toList, fourth, "   |   ^".toList] := by
  let e : LocatedError := ⟨.badCharacter "0b2".toList 2 .binary '2', ⟨⟨10, 3, 11⟩, ⟨10, 4, 12⟩⟩,
    "\n\n\n\n\n\n\n\n\n0b2".toList⟩
  have errors : (ofSource "\n\n\n\n\n\n\n\n\n0b2".toList).errors = [e] := by decide +kernel
  have member : e ∈ (ofSource "\n\n\n\n\n\n\n\n\n0b2".toList).errors := by
    rw [errors]
    exact List.mem_singleton_self e
  have named : '\n' ∉ "s".toList := by decide
  rcases render_isLaidOut member named with ⟨line, column, width, -, -, -, number, start, stop, first,
    second, third, fourth, fifth, rendered, laidOut⟩
  have number : (10 : Int) = line := number
  have start : (3 : Int) = column := start
  have stop : (4 : Int) = column + width := stop
  obtain rfl : line = 10 := by omega
  obtain rfl : column = 3 := by omega
  obtain rfl : width = 1 := by omega
  have digits : (Nat.digits 10 10).length = 2 := by simp
  have third : third = "   |".toList := by
    rw [laidOut.blank, digits]
    rfl
  have fifth : fifth = "   |   ^".toList := by
    rw [laidOut.carets, digits]
    rfl
  rw [third, fifth] at rendered
  exact ⟨named, e, member, first, second, fourth, rendered⟩

end Conversion
end ScriptLiterals
