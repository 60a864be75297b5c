import ScriptLiterals.Command.Word
import ScriptLiterals.Text.Integer

/-!
The arguments of a command line, read from its words from left to right. The first value that
belongs to no option is the input; words that belong nowhere are collected and refused at the end.

The mark that ends the options is never an option's value: an option that has it attached is given
without a value.
-/

namespace ScriptLiterals.Command

structure Arguments where
  input : Option Text := none
  literals : List (Option Text) := []
  output : Option Text := none
  width : Option Int := none
  strictSeparators : Bool := false
  noLeadingZeros : Bool := false
  config : Option Text := none
  watch : Bool := false
  debug : Bool := false
  deriving DecidableEq, Repr

inductive Halt
  | help
  | refused (error : ArgumentError)
  deriving DecidableEq, Repr

namespace Arguments

def setSwitch (arguments : Arguments) : Switch → Except Halt Arguments
  | .help => .error .help
  | .strictSeparators => .ok { arguments with strictSeparators := true }
  | .noLeadingZeros => .ok { arguments with noLeadingZeros := true }
  | .watch => .ok { arguments with watch := true }
  | .debug => .ok { arguments with debug := true }

def widthOfValue (value : Option Text) : Except Halt Int :=
  match value with
  | none => .ok 0
  | some text =>
    match Text.toInteger? text with
    | some width => .ok width
    | none => .error (.refused (.invalidInteger .width text))

/-- Takes an option with its value. Literals are collected; any other option counts as it is given
last. -/
def setField (arguments : Arguments) (field : Field) (value : Option Text) :
    Except Halt Arguments :=
  match field with
  | .literal => .ok { arguments with literals := arguments.literals ++ [value] }
  | .output => .ok { arguments with output := value }
  | .config => .ok { arguments with config := value }
  | .width => (widthOfValue value).map fun width => { arguments with width := some width }

end Arguments

inductive Remainder
  | nothing
  | value (field : Field) (value : Option Text)
  | awaited (field : Field)
  deriving DecidableEq, Repr

structure Cluster where
  switches : List Switch
  remainder : Remainder
  deriving DecidableEq, Repr

namespace Cluster

def single : Flag → Cluster
  | .switch switch => ⟨[switch], .nothing⟩
  | .field field => ⟨[], .awaited field⟩

def withValue (field : Field) (text : Text) : Cluster :=
  ⟨[], .value field (if text = Word.endMark then none else some text)⟩

def ofAttached : Flag → Text → Except ArgumentError Cluster
  | .field field, text => .ok (withValue field text)
  | .switch switch, [] => .error (.ignoredValue switch [])
  | .switch switch, c :: rest =>
    match Flag.ofShort? c with
    | none => .error (.ignoredValue switch (c :: rest))
    | some next =>
      let more := if rest.isEmpty then .ok (single next) else ofAttached next rest
      more.map fun cluster => { cluster with switches := switch :: cluster.switches }

def ofOption (flag : Flag) (spelling : Spelling) : Option Text → Except ArgumentError Cluster
  | none => .ok (single flag)
  | some text =>
    match spelling, flag with
    | .short, flag => ofAttached flag text
    | .long, .field field => .ok (withValue field text)
    | .long, .switch switch => .error (.ignoredValue switch text)

end Cluster

structure ArgumentReader where
  arguments : Arguments := {}
  inputTaken : Bool := false
  extras : List Text := []
  deriving DecidableEq, Repr

namespace ArgumentReader

def takeInput (reader : ArgumentReader) (text : Text) : ArgumentReader :=
  { reader with arguments := { reader.arguments with input := some text }, inputTaken := true }

def addExtra (reader : ArgumentReader) (text : Text) : ArgumentReader :=
  { reader with extras := reader.extras ++ [text] }

def setSwitches (reader : ArgumentReader) (switches : List Switch) :
    Except Halt ArgumentReader := do
  return { reader with arguments := ← switches.foldlM Arguments.setSwitch reader.arguments }

def setField (reader : ArgumentReader) (field : Field) (value : Option Text) :
    Except Halt ArgumentReader := do
  return { reader with arguments := ← reader.arguments.setField field value }

/-- Takes the options of a word, and says whether the next word went with them. An awaited value has
to be there before any of the options is set. -/
def takeCluster (reader : ArgumentReader) (cluster : Cluster) (next : Option Word) :
    Except Halt (ArgumentReader × Bool) :=
  match cluster.remainder with
  | .nothing => do return (← reader.setSwitches cluster.switches, false)
  | .value field value => do
    let reader ← reader.setSwitches cluster.switches
    return (← reader.setField field value, false)
  | .awaited field =>
    match next with
    | some (.plain text) => do
      let reader ← reader.setSwitches cluster.switches
      return (← reader.setField field (some text), true)
    | _ => .error (.refused (.expectedValue field))

def takeOption (reader : ArgumentReader) (flag : Flag) (spelling : Spelling)
    (attached : Option Text) (next : Option Word) : Except Halt (ArgumentReader × Bool) :=
  match Cluster.ofOption flag spelling attached with
  | .error e => .error (.refused e)
  | .ok cluster => reader.takeCluster cluster next

def takePlain (reader : ArgumentReader) (text : Text) : ArgumentReader :=
  if reader.inputTaken then reader.addExtra text else reader.takeInput text

/-- Reads words from left to right. The mark for the end of the options is dropped where it stands
directly before or behind the input. -/
def read (reader : ArgumentReader) (words : List Word) : Except Halt ArgumentReader :=
  match words with
  | [] => .ok reader
  | .plain text :: rest =>
    if !reader.inputTaken && rest.head? = some .endOfOptions then
      read (reader.takeInput text) rest.tail
    else read (reader.takePlain text) rest
  | .option flag spelling attached :: rest =>
    match reader.takeOption flag spelling attached rest.head? with
    | .error halt => .error halt
    | .ok (reader, true) => read reader rest.tail
    | .ok (reader, false) => read reader rest
  | .unknown text :: rest => read (reader.addExtra text) rest
  | .endOfOptions :: rest =>
    read (if reader.inputTaken then reader.addExtra Word.endMark else reader) rest
termination_by words.length
decreasing_by all_goals simp only [List.length_cons, List.length_tail]; omega

end ArgumentReader

def Arguments.ofTexts (texts : List Text) : Except Halt Arguments := do
  let words ← (Word.ofTexts texts).mapError .refused
  let reader ← ArgumentReader.read {} words
  if reader.extras = [] then .ok reader.arguments
  else .error (.refused (.unrecognized reader.extras))

end ScriptLiterals.Command
