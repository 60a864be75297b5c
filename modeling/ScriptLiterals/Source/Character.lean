/-!
The classes of characters that decide how a script is cut. All of them are ASCII.
-/

namespace ScriptLiterals

def isDigit (c : Char) : Bool := '0' ≤ c && c ≤ '9'

def startsIdentifier (c : Char) : Bool := c = '_' || ('a' ≤ c && c ≤ 'z') || ('A' ≤ c && c ≤ 'Z')

def isWordChar (c : Char) : Bool := isDigit c || startsIdentifier c

def isQuote (c : Char) : Bool := c = '\x22' || c = '\x27' || c = '\x60'

def isExponentMark (c : Char) : Bool := c = 'e' || c = 'E'

def isSign (c : Char) : Bool := c = '+' || c = '-'

def isDecimalChar (c : Char) : Bool := isDigit c || c = '_'

end ScriptLiterals
