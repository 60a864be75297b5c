import ScriptLiterals.Command.Usage
import ScriptLiterals.Text.DecimalDigit

/-!
The words of a command line. Each is taken for an option, a value, or the mark behind which all
words are values, by its form alone.
-/

namespace ScriptLiterals.Command

inductive Spelling
  | short
  | long
  deriving DecidableEq, Repr

inductive Word
  | plain (text : Text)
  | option (flag : Flag) (spelling : Spelling) (attached : Option Text)
  | unknown (text : Text)
  | endOfOptions
  deriving DecidableEq, Repr

namespace Word

def endMark : Text := ['-', '-']

def isDecimal (c : Char) : Bool := (Text.decimalDigit? c).isSome

def withoutFinalNewline (text : Text) : Text :=
  if text.getLast? = some '\n' then text.dropLast else text

/-- A dash and a number with or without a decimal point. It is a value, since no option looks like
it. -/
def isNegativeNumber : Text → Bool
  | '-' :: rest =>
    let number := withoutFinalNewline rest
    let allDigits : Text → Bool := fun digits => !digits.isEmpty && digits.all isDecimal
    allDigits number ||
      match number.dropWhile isDecimal with
      | '.' :: fraction => allDigits fraction
      | _ => false
  | _ => false

def ofName? (name : Text) (attached : Option Text) : Option Word :=
  match name with
  | ['-', c] => (Flag.ofShort? c).map fun flag => option flag .short attached
  | name => (Flag.ofLong? name).map fun flag => option flag .long attached

def splitAssigned (word : Text) : Text × Option Text :=
  match Text.cutAt? '=' word with
  | some (name, value) => (name, some value)
  | none => (word, none)

def abbreviated (word : Text) : List Flag :=
  Flag.all.filter fun flag => (splitAssigned word).1.isPrefixOf flag.long

def candidates (word : Text) : List Word :=
  match word with
  | '-' :: '-' :: _ =>
    (abbreviated word).map fun flag => option flag .long (splitAssigned word).2
  | '-' :: c :: rest =>
    ((Flag.ofShort? c).map fun flag => option flag .short (some rest)).toList
  | _ => []

def ofText (word : Text) : Except ArgumentError Word :=
  match word with
  | '-' :: _ :: _ =>
    let (name, attached) := splitAssigned word
    match (ofName? word none).or (ofName? name attached) with
    | some found => .ok found
    | none =>
      match candidates word with
      | [found] => .ok found
      | [] => .ok (if isNegativeNumber word || ' ' ∈ word then plain word else unknown word)
      | _ => .error (.ambiguous word ((abbreviated word).map Flag.long))
  | _ => .ok (plain word)

/-- The words of a command line; the first mark ends the options. -/
def ofTexts : List Text → Except ArgumentError (List Word)
  | [] => .ok []
  | text :: texts =>
    if text = endMark then .ok (endOfOptions :: texts.map plain)
    else do
      let word ← ofText text
      let words ← ofTexts texts
      return word :: words

end Word
end ScriptLiterals.Command
