import ScriptLiterals.Command.Report
import ScriptLiterals.Text.Lines

/-!
A run of the command: what it prints, which file it writes, and how it ends. Its exit code is 0 if
every literal has a value, 1 if one has none, and 2 if its job could not be done. Reading and writing
files may fail, printing does not.
-/

namespace ScriptLiterals.Command

inductive Failure
  | file (error : FileError)
  | stream (error : SystemError)
  | undecodable (error : Text.Utf8Error)
  | nestedTooDeep
  | watchNeedsInput
  deriving DecidableEq, Repr

namespace Failure

def message : Failure → Text
  | file e => e.message
  | stream e => e.message
  | undecodable e => e.message
  | nestedTooDeep => Toml.Fault.nestedTooDeep.message
  | watchNeedsInput => watchNeedsInputMessage

def isReported : Failure → Bool
  | file e => e.isFromFileSystem
  | stream _ => true
  | undecodable _ => true
  | nestedTooDeep => false
  | watchNeedsInput => false

def line (failure : Failure) : Text := "error: ".toList ++ failure.message ++ ['\n']

end Failure

/-- What became of a job: all literals have a value, some have none, or it could not be done. -/
inductive Status
  | converted
  | rejected
  | undone
  deriving DecidableEq, Repr

def Status.code : Status → Nat
  | converted => 0
  | rejected => 1
  | undone => 2

structure Outcome (α : Type) where
  result : α
  output : Text
  errorOutput : Text
  tree : FileTree
  deriving DecidableEq, Repr

/-- How a run ends: with its job, before it has one, or by a failure that it does not report. -/
inductive Ending
  | finished (status : Status)
  | helpShown
  | argumentsRefused
  | failed (failure : Failure)
  deriving DecidableEq, Repr

namespace Ending

def ofJob : Except Failure Status → Ending
  | .ok status => finished status
  | .error failure => failed failure

def code : Ending → Nat
  | finished status => status.code
  | helpShown => 0
  | argumentsRefused => 2
  | failed _ => 1

end Ending

def decodeInput (bytes : List UInt8) : Except Failure Text :=
  match Text.ofUtf8 bytes with
  | .error e => .error (.undecodable e)
  | .ok text => .ok text.withLineFeeds

def standardInputName : Text := "<stdin>".toList

def Job.script (job : Job) (tree : FileTree) (standardInput : Option Text) :
    Except Failure (Option Script) :=
  match standardInput, job.input with
  | some text, _ => .ok (some ⟨standardInputName, text⟩)
  | none, none => .ok none
  | none, some path =>
    match tree.read path with
    | .error e => .error (.file e)
    | .ok bytes => (decodeInput bytes).map fun text => some ⟨path.text, text⟩

def Job.deliver (job : Job) (tree : FileTree) (text : Text) :
    Except (FileError × FileTree) (Text × FileTree) :=
  match job.output with
  | some path => (tree.write path text.toUtf8).map ([], ·)
  | none => .ok (text, tree)

/-- Does a job once. Nothing is printed or written before the script has been read. -/
def Job.run (job : Job) (tree : FileTree) (standardInput : Option Text) :
    Outcome (Except Failure Status) :=
  match job.script tree standardInput with
  | .error failure =>
    if failure.isReported then ⟨.ok .undone, [], failure.line, tree⟩
    else ⟨.error failure, [], [], tree⟩
  | .ok script =>
    let report := job.report script
    match job.deliver tree report.text with
    | .error (e, left) => ⟨.error (.file e), [], job.listing script, left⟩
    | .ok (output, written) =>
      ⟨.ok (if report.errors.isEmpty then .converted else .rejected), output,
        job.listing script ++ report.errorLines, written⟩

abbrev StandardInput := Except SystemError (List UInt8)

def Arguments.standardText? (arguments : Arguments) (standardInput : StandardInput) :
    Except Failure (Option Text) :=
  if arguments.input = some Arguments.standardInput then
    match standardInput with
    | .error e => .error (.stream e)
    | .ok bytes => (decodeInput bytes).map some
  else .ok none

/-- What is wrong with a job that is not reported: that the settings file cannot be read, or that its
values are nested too deep. -/
def JobError.unreported? : JobError → Option Failure
  | .file e => some (.file e)
  | .document e => if e.fault = .nestedTooDeep then some .nestedTooDeep else none
  | _ => none

def withoutJob (e : JobError) (tree : FileTree) : Outcome Ending :=
  match e.unreported? with
  | some failure => ⟨.failed failure, [], [], tree⟩
  | none => ⟨.finished .undone, [], "error: ".toList ++ e.message ++ ['\n'], tree⟩

def start (words : List Text) (tree : FileTree) : Except (Outcome Ending) (Arguments × Job) :=
  match Arguments.ofTexts words with
  | .error .help => .error ⟨.helpShown, help, [], tree⟩
  | .error (.refused e) => .error ⟨.argumentsRefused, [], e.report, tree⟩
  | .ok arguments =>
    match arguments.toJob tree with
    | .error e => .error (withoutJob e tree)
    | .ok job => .ok (arguments, job)

def runOnce (arguments : Arguments) (job : Job) (tree : FileTree) (standardInput : StandardInput) :
    Outcome Ending :=
  match arguments.standardText? standardInput with
  | .error failure => ⟨.failed failure, [], [], tree⟩
  | .ok text =>
    let outcome := job.run tree text
    ⟨.ofJob outcome.result, outcome.output, outcome.errorOutput, outcome.tree⟩

end ScriptLiterals.Command
