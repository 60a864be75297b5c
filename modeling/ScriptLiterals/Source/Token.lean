import ScriptLiterals.Source.Lexeme
import ScriptLiterals.Source.Position

/-!
Tokens: the numbers of a script, each with the place where it stands, and a mark for the end.
-/

namespace ScriptLiterals

inductive TokenKind
  | integer
  | float
  | endOfSource
  deriving DecidableEq, Repr

namespace TokenKind

def ofNumber : NumberKind → TokenKind
  | .integer => integer
  | .float => float

def name : TokenKind → Text
  | integer => "INTEGER".toList
  | float => "FLOAT".toList
  | endOfSource => "EOF".toList

end TokenKind

structure Token where
  kind : TokenKind
  text : Text
  span : Span
  deriving DecidableEq, Repr

namespace Token

def endAt (p : Position) : Token := ⟨.endOfSource, [], ⟨p, p⟩⟩

def ofLexemes (p : Position) : List Lexeme → List Token
  | [] => []
  | lexeme :: more =>
    match lexeme.kind with
    | .number kind =>
      ⟨.ofNumber kind, lexeme.text, p, p.after lexeme.text⟩ :: ofLexemes (p.after lexeme.text) more
    | _ => ofLexemes (p.after lexeme.text) more

end Token
end ScriptLiterals
