import ScriptLiterals.Literal.Error
import ScriptLiterals.Source.Position
import ScriptLiterals.Text.Lines

/-!
Literal errors at their place in a script, and their rendering: the message, the place, and the
source line with the faulty text underlined.
-/

namespace ScriptLiterals

structure LocatedError where
  error : LiteralError
  span : Span
  source : Text
  deriving DecidableEq, Repr

namespace LocatedError

def message (e : LocatedError) : Text := e.error.message

/-- The line on which the span starts, as it is shown: without line feeds at its end and then
without carriage returns there. It is empty if the script has no such line. -/
def shownLine (e : LocatedError) : Text :=
  if 1 ≤ e.span.start.line then
    match (Text.lines e.source)[(e.span.start.line - 1).toNat]? with
    | some line => (line.dropTrailing '\n').dropTrailing '\r'
    | none => []
  else []

def underline (e : LocatedError) : Text :=
  Text.copies (e.span.start.column - 1) ' ' ++
    Text.copies (max 1 (e.span.stop.column - e.span.start.column)) '^'

def defaultName : Text := "<script>".toList

/-- The error in five lines. The line number stands in a gutter that is as wide as the number. -/
def render (e : LocatedError) (filename : Text := defaultName) : Text :=
  let number := Text.ofInt e.span.start.line
  let gutter := Text.copies (number.length + 1) ' '
  "error: ".toList ++ e.message ++ '\n' ::
    gutter ++ "--> ".toList ++ filename ++ ':' :: number ++ ':' :: Text.ofInt e.span.start.column ++
    '\n' :: gutter ++ '|' :: '\n' ::
    number ++ " | ".toList ++ e.shownLine ++ '\n' ::
    gutter ++ "| ".toList ++ e.underline

end LocatedError
end ScriptLiterals
