import ScriptLiterals.Command.Arguments
import ScriptLiterals.File.Tree
import ScriptLiterals.Literal.Options
import ScriptLiterals.Toml.Document

/-!
What the command is asked to do: the arguments together with the settings file. A setting comes from
the arguments if they give it, else from the settings file, else from the defaults, each on its own;
only the result is checked.
-/

namespace ScriptLiterals.Command

structure Job where
  input : Option Path
  output : Option Path
  literals : List (Option Text)
  options : Options
  watch : Bool
  debug : Bool
  deriving DecidableEq, Repr

inductive JobError
  | nothingToDo
  | watchNeedsInput
  | file (error : FileError)
  | undecodable (error : Text.Utf8Error)
  | document (error : Toml.Error)
  | settings (error : SettingsError)
  deriving DecidableEq, Repr

def watchNeedsInputMessage : Text := "--watch needs an input file".toList

def JobError.message : JobError → Text
  | nothingToDo => "nothing to do: give an input file or --literal".toList
  | watchNeedsInput => watchNeedsInputMessage
  | file e => e.message
  | undecodable e => e.message
  | document e => e.message
  | settings e => e.message

namespace Arguments

def standardInput : Text := ['-']

/-- A path that was given as a word; the empty word gives none. -/
def path? (word : Option Text) : Option Path :=
  match word with
  | none => none
  | some [] => none
  | some text => some (Path.ofText text)

def inputPath? (arguments : Arguments) : Option Path :=
  if arguments.input = some standardInput then none else path? arguments.input

/-- The settings file that belongs to an input lies beside it. -/
def configPath (arguments : Arguments) : Path :=
  match path? arguments.config with
  | some path => path
  | none =>
    match arguments.inputPath? with
    | some input => input.parent.child "numlit.toml".toList
    | none => ⟨.relative, ["numlit.toml".toList]⟩

def paths (arguments : Arguments) : List Path :=
  arguments.configPath :: (arguments.inputPath?.toList ++ (path? arguments.output).toList)

/-- The settings: those of the table `literals`, as far as they have the right type, below those of
the arguments. -/
def settings (arguments : Arguments) (config : Toml.Table) : Settings :=
  let table := ((config.find? "literals".toList).bind Toml.Value.table?).getD []
  let defaults : Settings := {}
  { width := arguments.width.getD
      (((table.find? "width".toList).bind Toml.Value.integer?).getD defaults.width)
    separators :=
      if arguments.strictSeparators then SeparatorPolicy.strict.name
      else ((table.find? "separators".toList).bind Toml.Value.text?).getD defaults.separators
    leadingZeros :=
      if arguments.noLeadingZeros then false
      else ((table.find? "leading_zeros".toList).bind Toml.Value.boolean?).getD
        defaults.leadingZeros }

def refusal? (arguments : Arguments) : Option JobError :=
  if arguments.input = none && arguments.literals.isEmpty then some .nothingToDo
  else if arguments.watch && (arguments.input = none || arguments.input = some standardInput) then
    some .watchNeedsInput
  else none

def job (arguments : Arguments) (config : Toml.Table) : Except JobError Job :=
  match (arguments.settings config).check with
  | .error e => .error (.settings e)
  | .ok options =>
    .ok ⟨arguments.inputPath?, path? arguments.output, arguments.literals, options, arguments.watch,
      arguments.debug⟩

end Arguments

def readSettingsFile (tree : FileTree) (path : Path) : Except JobError Toml.Table :=
  match tree.isFile path with
  | .error e => .error (.file e)
  | .ok false => .ok []
  | .ok true =>
    match tree.read path with
    | .error e => .error (.file e)
    | .ok bytes =>
      match Text.ofUtf8 bytes with
      | .error e => .error (.undecodable e)
      | .ok text => (Toml.Document.tables text).mapError .document

def Arguments.toJob (arguments : Arguments) (tree : FileTree) : Except JobError Job :=
  match arguments.refusal? with
  | some e => .error e
  | none =>
    match readSettingsFile tree arguments.configPath with
    | .error e => .error e
    | .ok config => arguments.job config

end ScriptLiterals.Command
