import ScriptLiterals.Text.Basic

/-!
Lines of a text. For display a text is cut at every line end that Unicode knows; what is read from a
file or a stream has its carriage returns turned into line feeds first.
-/

namespace ScriptLiterals.Text

def isLineEnd (c : Char) : Bool :=
  c = '\n' || c = '\r' || c = '\x0b' || c = '\x0c' || c = '\x1c' || c = '\x1d' || c = '\x1e' ||
    c = '\u0085' || c = '\u2028' || c = '\u2029'

/-- The lines of a text, each with the line end that closes it. A carriage return and the line feed
behind it are one line end. -/
def lines : Text → List Text
  | [] => []
  | '\r' :: '\n' :: rest => ['\r', '\n'] :: lines rest
  | c :: rest =>
    if isLineEnd c then [c] :: lines rest
    else
      match lines rest with
      | [] => [[c]]
      | line :: more => (c :: line) :: more

def dropTrailing (c : Char) (text : Text) : Text := (text.reverse.dropWhile (· = c)).reverse

def withLineFeeds : Text → Text
  | [] => []
  | '\r' :: '\n' :: rest => '\n' :: withLineFeeds rest
  | c :: rest => (if c = '\r' then '\n' else c) :: withLineFeeds rest

end ScriptLiterals.Text
