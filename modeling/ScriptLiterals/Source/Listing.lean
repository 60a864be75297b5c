import ScriptLiterals.Source.Token
import ScriptLiterals.Text.Quoted

/-!
Listings of tokens, one line for each: the kind, where the token stands, and its text in quotes.
-/

namespace ScriptLiterals

def Span.listing (span : Span) : Text :=
  Text.ofInt span.start.line ++ ':' :: Text.ofInt span.start.column ++ '-' ::
    Text.ofInt span.stop.line ++ ':' :: Text.ofInt span.stop.column

def Token.listing (token : Token) : Text :=
  token.kind.name ++ ' ' :: token.span.listing ++ ' ' :: Text.quoted token.text ++ ['\n']

def listTokens (tokens : List Token) : Text := tokens.flatMap Token.listing

end ScriptLiterals
