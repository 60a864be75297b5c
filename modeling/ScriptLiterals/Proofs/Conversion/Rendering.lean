import ScriptLiterals.Proofs.Conversion.Place
import ScriptLiterals.Proofs.Text.Lines

/-!
What the rendering of an error shows: five lines, of which the fourth shows the line with the error
and the fifth has carets under the part that the error is about. The line is found by its number among
the lines for display, so this holds as long as the lines above it end in line feeds.

Main statement: `render_shows_line`.
-/

namespace ScriptLiterals

open Text (unlines withoutReturn IsPlain isLineEnd)

/-- A script cut around one of its lines: `above` are the lines before it, each ended by a line
feed. -/
structure IsCutAround (source : Text) (above : List Text) (line below : Text) : Prop where
  whole : source = unlines above ++ (line ++ below)
  oneLine : ∀ other ∈ above, '\n' ∉ other
  noFeed : '\n' ∉ line
  ends : ∀ c ∈ below.head?, c = '\n'

variable {source line below : Text} {above : List Text}

theorem IsCutAround.splitOn_eq (cut : IsCutAround source above line below) :
    ∃ more, source.splitOn '\n' = above ++ line :: more := by
  obtain ⟨more, behind⟩ := Text.splitOn_line cut.noFeed cut.ends
  exact ⟨more, by rw [cut.whole, Text.splitOn_unlines cut.oneLine, behind]⟩

theorem exists_isCutAround (before : Text) {text : Text} (rest : Text) (noFeed : '\n' ∉ text) :
    ∃ above front back below, before = unlines above ++ front ∧
      IsCutAround (before ++ text ++ rest) above (front ++ text ++ back) below := by
  obtain ⟨above, front, rfl, oneLine, first⟩ := Text.exists_unlines before
  refine ⟨above, front, rest.takeWhile (· ≠ '\n'), rest.dropWhile (· ≠ '\n'), rfl, ?_⟩
  have last : '\n' ∉ rest.takeWhile (· ≠ '\n') := by
    intro feed
    simpa using List.mem_takeWhile_imp feed
  refine ⟨by simp [List.takeWhile_append_dropWhile], oneLine,
    List.not_mem_append (List.not_mem_append first noFeed) last, ?_⟩
  intro c head
  have := List.head?_dropWhile_not (fun c => decide (c ≠ '\n')) rest
  rw [head] at this
  simpa using this

theorem Position.start_after_unlines {front : Text} (oneLine : ∀ other ∈ above, '\n' ∉ other)
    (noFeed : '\n' ∉ front) :
    (start.after (unlines above ++ front)).line = 1 + above.length ∧
      (start.after (unlines above ++ front)).column = 1 + front.length := by
  have column : (start.after (unlines above)).column = 1 := by
    rcases List.eq_nil_or_concat above with rfl | ⟨others, last, rfl⟩
    · rfl
    · rw [List.concat_eq_append, Text.unlines_append, after_append, Text.unlines_cons, after_append]
      rfl
  rw [after_append, after_eq_advance _ noFeed]
  exact ⟨by simp [advance, line_after, Text.count_unlines oneLine, start], by simp [advance, column]⟩

namespace LocatedError

def indent (e : LocatedError) : Text := Text.copies ((Text.ofInt e.span.start.line).length + 1) ' '

def headline (e : LocatedError) : Text := "error: ".toList ++ e.message

def placeLine (e : LocatedError) (filename : Text) : Text :=
  e.indent ++ "--> ".toList ++ filename ++ ':' :: (Text.ofInt e.span.start.line ++ ':' ::
    Text.ofInt e.span.start.column)

def numberGutter (e : LocatedError) : Text := Text.ofInt e.span.start.line ++ " | ".toList

def blankGutter (e : LocatedError) : Text := e.indent ++ "| ".toList

variable {e : LocatedError}

theorem render_eq (e : LocatedError) (filename : Text) :
    e.render filename = e.headline ++ '\n' :: (e.placeLine filename ++ '\n' ::
      ((e.indent ++ ['|']) ++ '\n' :: ((e.numberGutter ++ e.shownLine) ++ '\n' ::
        (e.blankGutter ++ e.underline)))) := by
  unfold render headline placeLine numberGutter blankGutter indent
  dsimp only
  -- the fixed texts stay closed: only the order of the parts matters
  generalize "error: ".toList = label
  generalize "--> ".toList = arrow
  generalize " | ".toList = bar
  generalize "| ".toList = bar
  simp only [List.append_assoc, List.cons_append, List.nil_append]

theorem newline_not_mem_indent (e : LocatedError) : '\n' ∉ e.indent := by
  simp [indent, Text.copies]

theorem newline_not_mem_shownLine (e : LocatedError) : '\n' ∉ e.shownLine := by
  unfold shownLine
  split
  · split
    · next line found => exact Text.newline_not_mem_shown (List.mem_of_getElem? found)
    · simp
  · simp

theorem newline_not_mem_underline (e : LocatedError) : '\n' ∉ e.underline := by
  simp [underline, Text.copies]

theorem newline_not_mem_placeLine {filename : Text} (named : '\n' ∉ filename) :
    '\n' ∉ e.placeLine filename := by
  have line := newline_not_mem_ofInt e.span.start.line
  have column := newline_not_mem_ofInt e.span.start.column
  have front := List.not_mem_append e.newline_not_mem_indent
    (show '\n' ∉ "--> ".toList by decide)
  refine List.not_mem_append (List.not_mem_append front named) ?_
  simp [line, column]

theorem splitOn_render (message : '\n' ∉ e.message) {filename : Text} (named : '\n' ∉ filename) :
    (e.render filename).splitOn '\n' = [e.headline, e.placeLine filename, e.indent ++ ['|'],
      e.numberGutter ++ e.shownLine, e.blankGutter ++ e.underline] := by
  have first : '\n' ∉ e.headline := List.not_mem_append (by decide) message
  have third : '\n' ∉ e.indent ++ ['|'] := List.not_mem_append e.newline_not_mem_indent (by decide)
  have fourth : '\n' ∉ e.numberGutter ++ e.shownLine :=
    List.not_mem_append (List.not_mem_append (newline_not_mem_ofInt _) (by decide))
      e.newline_not_mem_shownLine
  have fifth : '\n' ∉ e.blankGutter ++ e.underline :=
    List.not_mem_append (List.not_mem_append e.newline_not_mem_indent (by decide))
      e.newline_not_mem_underline
  rw [render_eq, List.splitOn_append_cons_self_of_not_mem first,
    List.splitOn_append_cons_self_of_not_mem (newline_not_mem_placeLine named),
    List.splitOn_append_cons_self_of_not_mem third, List.splitOn_append_cons_self_of_not_mem fourth,
    List.splitOn_eq_singleton fifth]

theorem shownLine_eq (cut : IsCutAround e.source above line below)
    (number : e.span.start.line = 1 + above.length) (plain : ∀ other ∈ above, IsPlain other) :
    e.shownLine = Text.shown ((Text.lines (line ++ below)).headD []) := by
  have index : (e.span.start.line - 1).toNat = (above.map (· ++ ['\n'])).length := by
    rw [List.length_map]
    omega
  rw [shownLine, if_pos (by omega), cut.whole, Text.lines_unlines plain, index,
    List.getElem?_append_right (Nat.le_refl _), Nat.sub_self]
  cases Text.lines (line ++ below) <;> rfl

theorem idxsOf_replicate (count place : Nat) (c : Char) :
    (List.replicate count c).idxsOf c place = List.range' place count := by
  induction count generalizing place with
  | zero => rfl
  | succ count ih => simp [List.replicate_succ, List.range'_succ, ih]

theorem idxsOf_carets {place width : Nat} (column : e.span.start.column = 1 + place)
    (stop : e.span.stop.column = e.span.start.column + width) (positive : 0 < width) :
    (e.blankGutter ++ e.underline).idxsOf '^' =
      List.range' (e.numberGutter.length + place) width := by
  have blanks : (e.span.start.column - 1).toNat = place := by omega
  have carets : (max 1 (e.span.stop.column - e.span.start.column)).toNat = width := by omega
  have gutter : e.blankGutter.length = e.numberGutter.length := by
    simp [blankGutter, numberGutter, indent, Text.copies]
  have noCaret : '^' ∉ e.blankGutter ++ List.replicate place ' ' := by
    refine List.not_mem_append (List.not_mem_append ?_ (by decide)) (by simp)
    simp [indent, Text.copies]
  have before : (e.blankGutter ++ List.replicate place ' ').idxsOf '^' = [] := by
    rw [List.idxsOf_eq_nil_iff]
    intro c member
    rw [beq_eq_false_iff_ne]
    rintro rfl
    exact noCaret member
  calc
    _ = (e.blankGutter ++ List.replicate place ' ' ++ List.replicate width '^').idxsOf '^' := by
      rw [underline, Text.copies, Text.copies, blanks, carets, List.append_assoc]
    _ = List.range' (0 + (e.blankGutter ++ List.replicate place ' ').length) width := by
      rw [List.idxsOf_append, before, List.nil_append, idxsOf_replicate]
    _ = _ := by simp [gutter]

theorem getElem?_of_part {left part right : Text} {index : Nat} (inside : index < part.length) :
    (left ++ part ++ right)[left.length + index]? = part[index]? := by
  rw [List.append_assoc, List.getElem?_append_right (by omega), Nat.add_sub_cancel_left,
    List.getElem?_append_left inside]

theorem map_getElem?_range' (left part right : Text) :
    (List.range' left.length part.length).map ((left ++ part ++ right)[·]?) = part.map some := by
  apply List.ext_getElem
  · simp
  · intro index _ inside
    rw [List.length_map] at inside
    rw [List.getElem_map, List.getElem_map, List.getElem_range', Nat.one_mul,
      getElem?_of_part inside, List.getElem?_eq_getElem inside]

end LocatedError

/-- The carets stand under the part of the shown line that the error is about: under the bad character
or the whole literal, or behind the literal if it has no digits. What stands before the literal is
`left`. -/
def Underlines (left : Text) (token : Token) (fault : LiteralFault) (shown carets : Text) : Prop :=
  (left ++ token.text) <+: shown ∧
    match fault with
    | .malformed _ (some character) _ =>
      (carets.idxsOf '^').map (shown[·]?) = character.map some
    | .malformed _ none _ => carets.idxsOf '^' = [(left ++ token.text).length]
    | .overflow _ _ => (carets.idxsOf '^').map (shown[·]?) = token.text.map some
    | .other _ => False

namespace Conversion

variable {options : Options} {token : Token} {e : LocatedError}

theorem underlines_of_isFaultOf {fault : LiteralError} {before front right : Text}
    (placed : token.span = ⟨Position.start.after before,
      (Position.start.after before).advance token.text.length⟩)
    (column : (Position.start.after before).column = 1 + front.length) (nonempty : token.text ≠ [])
    (isFault : fault.IsFaultOf token.text) (span : e.span = fault.spanIn token) :
    Underlines (e.numberGutter ++ front) token fault.fault
      (e.numberGutter ++ front ++ token.text ++ right) (e.blankGutter ++ e.underline) := by
  refine ⟨List.prefix_append _ _, ?_⟩
  have length := List.length_pos_iff.mpr nonempty
  -- the kinds differ in the column of the first caret and in how many there are
  cases isFault with
  | @character index c here radix wording worded =>
    have start : e.span.start.column = 1 + (front.length + index : Nat) := by
      simp only [span, LiteralError.spanIn, placed, Position.advance, column]
      omega
    have stop : e.span.stop.column = e.span.start.column + (1 : Nat) := by
      simp only [span, LiteralError.spanIn, Position.advance]
      omega
    have inside := (List.getElem?_eq_some_iff.mp here).1
    change List.map _ _ = _
    rw [LocatedError.idxsOf_carets start stop (by omega), ← Nat.add_assoc, ← List.length_append]
    rw [List.range'_one, List.map_singleton, LocatedError.getElem?_of_part inside, here]
    rfl
  | noDigits radix =>
    have start : e.span.start.column = 1 + (front.length + token.text.length : Nat) := by
      simp only [span, LiteralError.spanIn, LiteralError.noDigits, placed, Position.advance, column]
      omega
    have stop : e.span.stop.column = e.span.start.column + (1 : Nat) := by
      simp only [span, LiteralError.spanIn, LiteralError.noDigits, Position.advance]
      omega
    change List.idxsOf _ _ = _
    rw [LocatedError.idxsOf_carets start stop (by omega)]
    simp
  | overflow index radix width =>
    have start : e.span.start.column = 1 + front.length := by
      simp only [span, LiteralError.spanIn, LiteralError.overflow, placed, column]
    have stop : e.span.stop.column = e.span.start.column + token.text.length := by
      simp only [span, LiteralError.spanIn, LiteralError.overflow, placed, Position.advance]
    change List.map _ _ = _
    rw [LocatedError.idxsOf_carets start stop length, ← List.length_append]
    exact LocatedError.map_getElem?_range' _ _ _

/-- The fourth line of a rendering shows the script's line in which the error is, and the carets of the
fifth stand under what the error is about, if the lines above and the line itself are plain. For the
carets it is enough that no line ends before the literal. -/
theorem render_shows_line (member : e ∈ (ofSource source options).errors) :
    ∃ token ∈ integers source, BelongsTo source e token ∧
      ∃ above line more front back first second third fourth fifth,
        source.splitOn '\n' = above ++ line :: more ∧ e.span.start.line = 1 + above.length ∧
        line = front ++ token.text ++ back ∧ token.span.start.column = 1 + front.length ∧
        e.render.splitOn '\n' = [first, second, third, fourth, fifth] ∧
        ((∀ other ∈ above, IsPlain other) →
          ((∀ c ∈ front, isLineEnd c = false) →
            Underlines (e.numberGutter ++ front) token e.error.fault fourth fifth) ∧
          (IsPlain line → fourth = e.numberGutter ++ withoutReturn line)) := by
  obtain ⟨token, integer, found⟩ := List.mem_filterMap.mp member
  obtain ⟨fault, read, rfl⟩ := error?_eq_some_iff.mp found
  have isFault := LiteralError.isFaultOf_of_readLiteral read
  have belongs := belongsTo_of_isFaultOf integer isFault
  obtain ⟨before, rest, split, characters, nonempty, placed⟩ := integer_placed integer
  have noFeed := newline_not_mem_of_isNumberChar characters
  -- the line is cut out of what stands before and behind the token
  obtain ⟨above, front, back, below, rfl, cut⟩ := exists_isCutAround before rest noFeed
  rw [← split] at cut
  have noFeedBefore : '\n' ∉ front := by
    intro feed
    exact cut.noFeed (List.mem_append_left _ (List.mem_append_left _ feed))
  obtain ⟨line, column⟩ := Position.start_after_unlines cut.oneLine noFeedBefore
  obtain ⟨more, lines⟩ := cut.splitOn_eq
  have number : (fault.spanIn token).start.line = 1 + above.length := by
    rw [← line, belongs.line_eq.1, placed]
  have message := isFault.newline_not_mem_message noFeed
  have rendered := @LocatedError.splitOn_render ⟨fault, fault.spanIn token, source⟩ message
    LocatedError.defaultName (by decide)
  refine ⟨token, integer, belongs, above, front ++ token.text ++ back, more, front, back, _, _, _, _,
    _, lines, number, rfl, by rw [placed, column], rendered, ?_⟩
  intro plain
  rw [LocatedError.shownLine_eq cut number plain]
  constructor
  · intro inner
    have inner : ∀ c ∈ front ++ token.text, isLineEnd c = false := by
      intro c member
      rcases List.mem_append.mp member with member | member
      · exact inner c member
      · exact isLineEnd_of_isNumberChar (characters c member)
    -- no line for display ends in or before the literal, so the line shown begins with both
    have whole : Text.shown ((Text.lines (front ++ token.text ++ back ++ below)).headD []) =
        front ++ token.text ++ Text.shown ((Text.lines (back ++ below)).headD []) := by
      calc
        _ = Text.shown (front ++ token.text ++ (Text.lines (back ++ below)).headD []) := by
          rw [List.append_assoc _ back, Text.lines_append inner (.inl (by simp [nonempty])),
            List.headD_cons]
        _ = _ := Text.shown_append inner _
    rw [whole, ← List.append_assoc, ← List.append_assoc]
    exact underlines_of_isFaultOf placed column nonempty isFault rfl
  · intro plainLine
    obtain ⟨c, others, text⟩ := List.exists_cons_of_ne_nil nonempty
    have visible : c ≠ '\r' := by
      rintro rfl
      exact absurd (characters '\r' (by simp [text])) (by decide)
    have kept : c ∈ withoutReturn (front ++ token.text ++ back) :=
      Text.mem_withoutReturn (by simp [text]) visible
    rw [Text.shown_line plainLine (List.ne_nil_of_mem kept) cut.ends]

theorem render_shows_line_before_return :
    ∃ e ∈ (ofSource "7\r\n 0o9\r".toList).errors, ∃ first second third fifth,
      e.render.splitOn '\n' = [first, second, third, "2 |  0o9".toList, fifth] := by
  let e : LocatedError := ⟨.badCharacter "0o9".toList 2 .octal '9', ⟨⟨2, 4, 6⟩, ⟨2, 5, 7⟩⟩,
    "7\r\n 0o9\r".toList⟩
  have errors : (ofSource "7\r\n 0o9\r".toList).errors = [e] := by decide +kernel
  have member : e ∈ (ofSource "7\r\n 0o9\r".toList).errors := by
    rw [errors]
    exact List.mem_singleton_self e
  obtain ⟨token, -, -, above, line, more, front, back, first, second, third, fourth, fifth, lines,
    number, -, -, rendered, shows⟩ := render_shows_line member
  obtain ⟨other, rfl⟩ : ∃ other, above = [other] := by
    rw [← List.length_eq_one_iff]
    have : (2 : Int) = 1 + above.length := number
    omega
  have cut : "7\r\n 0o9\r".toList.splitOn '\n' = ["7\r".toList, " 0o9\r".toList] := by
    decide +kernel
  rw [cut] at lines
  obtain ⟨rfl, rfl, -⟩ : "7\r".toList = other ∧ " 0o9\r".toList = line ∧ [] = more := by
    simpa using lines
  have plain : ∀ other ∈ ["7\r".toList], IsPlain other := by decide +kernel
  obtain rfl := (shows plain).2 (by decide +kernel)
  exact ⟨e, member, first, second, third, fifth, rendered⟩

/-- A form feed ends a line for display and none of the script, so that the line shown is the one above
the error, and nothing stands above the caret. -/
theorem render_misses_line_below_form_feed :
    "\x0c\n0o9".toList.splitOn '\n' = ["\x0c".toList, "0o9".toList] ∧
      (ofSource "\x0c\n0o9".toList).errors.map (·.span.start.line) = [2] ∧
      (ofSource "\x0c\n0o9".toList).errors.map (fun e => (e.render.splitOn '\n').drop 3) =
        [["2 | ".toList, "  |   ^".toList]] := by
  decide +kernel

end Conversion
end ScriptLiterals
