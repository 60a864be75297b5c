import ScriptLiterals.Text.Quoted
import ScriptLiterals.Toml.Value

/-!
What can be wrong with a TOML document, and where.
-/

namespace ScriptLiterals.Toml

inductive Fault
  | invalidStatement
  | statementNotEnded
  | expected (delimiter : Text)
  | invalidCharacter (c : Char)
  | illegalCharacter (c : Char)
  | declaredTwice (key : Key)
  | redefinesNamespace (key : Key)
  | immutableNamespace (key : Key)
  | overwritesValue
  | duplicateInlineKey (name : Text)
  | unclosedTableHeader
  | unclosedArrayHeader
  | invalidKeyStart
  | missingEquals
  | unclosedArray
  | unclosedInlineTable
  | unterminatedString
  | unescapedBackslash
  | invalidHexValue
  | notScalarValue
  | invalidDate
  | invalidValue
  | tooManyDigits (count : Nat)
  | nestedTooDeep
  deriving DecidableEq, Repr

def Fault.message : Fault → Text
  | invalidStatement => "Invalid statement".toList
  | statementNotEnded => "Expected newline or end of document after a statement".toList
  | expected delimiter => "Expected ".toList ++ Text.quoted delimiter
  | invalidCharacter c => "Found invalid character ".toList ++ Text.quoted [c]
  | illegalCharacter c => "Illegal character ".toList ++ Text.quoted [c]
  | declaredTwice key => "Cannot declare ".toList ++ Text.quotedGroup key ++ " twice".toList
  | redefinesNamespace key => "Cannot redefine namespace ".toList ++ Text.quotedGroup key
  | immutableNamespace key => "Cannot mutate immutable namespace ".toList ++ Text.quotedGroup key
  | overwritesValue => "Cannot overwrite a value".toList
  | duplicateInlineKey name => "Duplicate inline table key ".toList ++ Text.quoted name
  | unclosedTableHeader => "Expected ']' at the end of a table declaration".toList
  | unclosedArrayHeader => "Expected ']]' at the end of an array declaration".toList
  | invalidKeyStart => "Invalid initial character for a key part".toList
  | missingEquals => "Expected '=' after a key in a key/value pair".toList
  | unclosedArray => "Unclosed array".toList
  | unclosedInlineTable => "Unclosed inline table".toList
  | unterminatedString => "Unterminated string".toList
  | unescapedBackslash => "Unescaped '\\' in a string".toList
  | invalidHexValue => "Invalid hex value".toList
  | notScalarValue => "Escaped character is not a Unicode scalar value".toList
  | invalidDate => "Invalid date or datetime".toList
  | invalidValue => "Invalid value".toList
  | tooManyDigits count =>
    "Exceeds the limit (4300 digits) for integer string conversion: value has ".toList ++
      Text.ofNat count ++ " digits; use sys.set_int_max_str_digits() to increase the limit".toList
  | nestedTooDeep => "maximum recursion depth exceeded".toList

structure Failure where
  fault : Fault
  rest : Text
  deriving DecidableEq, Repr

inductive Place
  | at (line column : Nat)
  | endOfDocument
  deriving DecidableEq, Repr

def Place.message : Place → Text
  | .at line column => "line ".toList ++ Text.ofNat line ++ ", column ".toList ++ Text.ofNat column
  | endOfDocument => "end of document".toList

def Place.ofRest (source rest : Text) : Place :=
  if rest = [] then endOfDocument
  else
    let before := source.take (source.length - rest.length)
    .at (before.count '\n' + 1) ((before.reverse.takeWhile (· ≠ '\n')).length + 1)

structure Error where
  fault : Fault
  place : Place
  deriving DecidableEq, Repr

/-- What goes beyond a limit is no fault of the document's form, and is said without its place. -/
def Error.message (e : Error) : Text :=
  match e.fault with
  | .tooManyDigits _ => e.fault.message
  | .nestedTooDeep => e.fault.message
  | _ => e.fault.message ++ " (at ".toList ++ e.place.message ++ [')']

end ScriptLiterals.Toml
