import ScriptLiterals.LocatedError
import ScriptLiterals.Literal.Read
import ScriptLiterals.Source.TokenStream

/-!
Converting the integers of a script.
-/

namespace ScriptLiterals

/-- Where in the script an error of a token is: an overflow concerns the whole literal, any other
error one character. -/
def LiteralError.spanIn (e : LiteralError) (token : Token) : Span :=
  match e.fault with
  | .overflow _ _ => token.span
  | _ => ⟨token.span.start.advance e.offset, token.span.start.advance (e.offset + 1)⟩

structure Conversion where
  values : List (Token × Int)
  errors : List LocatedError
  deriving DecidableEq, Repr

namespace Conversion

def integers (source : Text) : List Token := (Token.ofSource source).filter (·.kind = .integer)

def value? (options : Options) (token : Token) : Option (Token × Int) :=
  match readLiteral token.text options with
  | .ok value => some (token, value)
  | .error _ => none

def error? (source : Text) (options : Options) (token : Token) : Option LocatedError :=
  match readLiteral token.text options with
  | .ok _ => none
  | .error e => some ⟨e, e.spanIn token, source⟩

def ofSource (source : Text) (options : Options := {}) : Conversion :=
  ⟨(integers source).filterMap (value? options),
    (integers source).filterMap (error? source options)⟩

def result (conversion : Conversion) : Except LocatedError (List (Token × Int)) :=
  match conversion.errors with
  | [] => .ok conversion.values
  | e :: _ => .error e

end Conversion
end ScriptLiterals
