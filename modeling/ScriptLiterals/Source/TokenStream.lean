import ScriptLiterals.Source.Token

/-!
Reading a script for its numbers. A stream keeps what it has found, so that reading on with nothing
left adds one more end mark.
-/

namespace ScriptLiterals

/-- What is still to be read, where that begins, and the tokens found so far. -/
structure TokenStream where
  rest : Text
  position : Position
  tokens : List Token
  deriving DecidableEq, Repr

namespace TokenStream

def ofSource (source : Text) : TokenStream := ⟨source, .start, []⟩

def readAll (stream : TokenStream) : TokenStream :=
  let stop := stream.position.after stream.rest
  ⟨[], stop, stream.tokens ++ Token.ofLexemes stream.position (lexemes stream.rest) ++
    [Token.endAt stop]⟩

def readings : Nat → TokenStream → List (List Token)
  | 0, _ => []
  | times + 1, stream => stream.readAll.tokens :: readings times stream.readAll

end TokenStream

def Token.ofSource (source : Text) : List Token := (TokenStream.ofSource source).readAll.tokens

end ScriptLiterals
