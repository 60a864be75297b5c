import ScriptLiterals.Command.Run

/-!
Watching an input. At each poll the input is checked if it is there and its time is not the one that
was seen last; what goes wrong with the files is printed and watching goes on.
-/

namespace ScriptLiterals.Command

structure LogEntry where
  output : Text
  errorOutput : Text
  deriving DecidableEq, Repr

structure Polled where
  lastSeen : Int
  tree : FileTree
  log : LogEntry
  failure : Option Failure := none
  deriving DecidableEq, Repr

namespace Job

def checkedLine (path : Path) : Text := "Checked ".toList ++ path.text ++ ['\n']

def check (job : Job) (path : Path) (seen : Int) (tree : FileTree) : Polled :=
  let outcome := job.run tree none
  let polled (closing : Text) (failure : Option Failure) : Polled :=
    ⟨seen, outcome.tree, ⟨outcome.output, outcome.errorOutput ++ closing⟩, failure⟩
  match outcome.result with
  | .ok .undone => polled [] none
  | .ok _ => polled (checkedLine path) none
  | .error failure =>
    if failure.isReported then polled failure.line none else polled [] (some failure)

def poll (job : Job) (path : Path) (lastSeen : Int) (tree : FileTree) : Polled :=
  match tree.modified path with
  | .error e =>
    ⟨lastSeen, tree, ⟨[], []⟩, if e.isFromFileSystem then none else some (.file e)⟩
  | .ok modified =>
    if modified = lastSeen then ⟨lastSeen, tree, ⟨[], []⟩, none⟩ else job.check path modified tree

end Job

structure Watched where
  ending : Ending
  log : List LogEntry
  tree : FileTree

def LogEntry.ifWritten (entry : LogEntry) : List LogEntry :=
  if entry.output = [] && entry.errorOutput = [] then [] else [entry]

namespace Watched

def ofOutcome (outcome : Outcome Ending) : Watched :=
  ⟨outcome.result, LogEntry.ifWritten ⟨outcome.output, outcome.errorOutput⟩, outcome.tree⟩

/-- Polls until no changes are left; each rest brings the next change of the files. `printed` was
written to the error output before the first poll. -/
def polls (job : Job) (path : Path) :
    Text → Int → FileTree → List (FileTree → FileTree) → Watched
  | printed, lastSeen, tree, changes =>
    let polled := job.poll path lastSeen tree
    let entry : LogEntry := ⟨polled.log.output, printed ++ polled.log.errorOutput⟩
    match polled.failure, changes with
    | some failure, _ => ⟨.failed failure, entry.ifWritten, polled.tree⟩
    | none, [] => ⟨.finished .converted, [entry], polled.tree⟩
    | none, change :: changes =>
      let watched := polls job path [] polled.lastSeen (change polled.tree) changes
      { watched with log := entry :: watched.log }

def watchingLine (path : Path) : Text :=
  "Watching ".toList ++ path.text ++ " for changes...\n".toList

def ofJob (job : Job) (tree : FileTree) (changes : List (FileTree → FileTree)) : Watched :=
  match job.input with
  | none => ⟨.failed .watchNeedsInput, [], tree⟩
  | some path => polls job path (watchingLine path) 0 tree changes

end Watched

/-- A run of the command while the files change: a watched run rests before each change, any other
run does not see them. -/
def runWatched (words : List Text) (tree : FileTree) (standardInput : StandardInput)
    (changes : List (FileTree → FileTree)) : Watched :=
  match start words tree with
  | .error outcome => .ofOutcome outcome
  | .ok (arguments, job) =>
    if job.watch then .ofJob job tree changes
    else .ofOutcome (runOnce arguments job tree standardInput)

/-- A run of the command. When it watches, it is interrupted at its first rest. -/
def run (words : List Text) (tree : FileTree) (standardInput : StandardInput) : Outcome Ending :=
  let watched := runWatched words tree standardInput []
  ⟨watched.ending, watched.log.flatMap (·.output), watched.log.flatMap (·.errorOutput),
    watched.tree⟩

end ScriptLiterals.Command
