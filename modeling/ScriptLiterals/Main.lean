import ScriptLiterals.Command.Watch

/-!
The command on the files of the machine. What it does is decided by `Command.start`,
`Command.runOnce` and `Command.Job.poll` on a copy of the files that its arguments name; here that
copy is read, and what they print and write is carried out.
-/

namespace ScriptLiterals.Command

def systemError (e : IO.Error) : SystemError :=
  let error (number : UInt32) (text : String) : SystemError :=
    ⟨number.toNat, text.toList.filter (· ≠ '\n'), by simp⟩
  match e with
  | .otherError number text | .resourceBusy number text | .resourceVanished number text
  | .unsupportedOperation number text | .hardwareFault number text
  | .unsatisfiedConstraints number text | .illegalOperation number text
  | .protocolError number text | .timeExpired number text | .interrupted _ number text
  | .noFileOrDirectory _ number text | .invalidArgument _ number text
  | .permissionDenied _ number text | .resourceExhausted _ number text
  | .inappropriateType _ number text | .noSuchThing _ number text
  | .alreadyExists _ number text => error number text
  | .unexpectedEof => error 5 "Input/output error"
  | .userError text => error 5 text

/-- The time that is seen of a file: its seconds as a float, in nanoseconds again. -/
def timeSeen (time : IO.FS.SystemTime) : Int :=
  let seen := Float.ofInt time.sec + time.nsec.toNat.toFloat * 1e-9
  let whole := seen.floor
  whole.toInt64.toInt * 1000000000 + ((seen - whole) * 1000000000).round.toInt64.toInt

/-- What is known of a name that the machine does not let one look at: with the number 13 it is the
directory that may not be searched. -/
def refuse (tree : FileTree) (place : FilePlace) (e : SystemError) : FileTree :=
  if e.number = 2 then tree
  else if e.number = 13 then
    tree.put place.up .directory 0 { tree.access place.up with search := some e }
  else
    tree.put place (.file []) 0
      { search := some e, inspect := some e, read := some e, write := some e }

def loadFile (tree : FileTree) (place : FilePlace) (name : String) (modified : Int) :
    IO FileTree := do
  try
    return tree.put place (.file (← IO.FS.readBinFile name).toList) modified
  catch e => return tree.put place (.file []) modified { read := some (systemError e) }

def loadLast (tree : FileTree) (path : Path) : IO FileTree := do
  match tree.resolve path with
  | .error _ => return tree
  | .ok place =>
    let name := String.ofList path.text
    try
      let found ← (System.mkFilePath [name]).metadata
      match found.type with
      | .dir => return tree.put place .directory (timeSeen found.modified)
      | _ => loadFile tree place name (timeSeen found.modified)
    catch e => return refuse tree place (systemError e)

def loadPath (tree : FileTree) (path : Path) : IO FileTree :=
  (List.range (path.names.length + 1)).foldlM
    (fun tree count => loadLast tree { path with names := path.names.take count }) tree

def loadPaths (paths : List Path) : IO FileTree := paths.foldlM loadPath { clock := 1 }

def placeName (place : FilePlace) : String :=
  let path : Path :=
    match place.anchor with
    | .root => ⟨.slash, place.names⟩
    | .above levels => ⟨.relative, List.replicate levels ['.', '.'] ++ place.names⟩
  String.ofList path.text

def storeChanges (before after : FileTree) : IO Unit := do
  for (place, bytes) in after.newFiles before do
    IO.FS.writeBinFile (placeName place) (ByteArray.mk bytes.toArray)

def print (log : LogEntry) : IO Unit := do
  let output ← IO.getStdout
  output.putStr (String.ofList log.output)
  output.flush
  let errors ← IO.getStderr
  errors.putStr (String.ofList log.errorOutput)
  errors.flush

def exitCode (ending : Ending) : IO UInt32 := do
  match ending with
  | .failed failure => print ⟨[], failure.line⟩
  | _ => pure ()
  return UInt32.ofNat ending.code

def conclude (before : FileTree) (outcome : Outcome Ending) : IO UInt32 := do
  storeChanges before outcome.tree
  print ⟨outcome.output, outcome.errorOutput⟩
  exitCode outcome.result

partial def readAll (stream : IO.FS.Stream) (bytes : ByteArray) : IO ByteArray := do
  let more ← stream.read 65536
  if more.isEmpty then return bytes else readAll stream (bytes ++ more)

def readStandardInput : IO StandardInput := do
  try
    return .ok (← readAll (← IO.getStdin) ByteArray.empty).toList
  catch e => return .error (systemError e)

partial def watchFiles (job : Job) (path : Path) (paths : List Path) (lastSeen : Int) :
    IO UInt32 := do
  let tree ← loadPaths paths
  let polled := job.poll path lastSeen tree
  try
    storeChanges tree polled.tree
    print polled.log
  catch e =>
    print ⟨[], (Failure.file ⟨.refused (systemError e), job.output.getD path⟩).line⟩
  match polled.failure with
  | some failure => exitCode (.failed failure)
  | none =>
    IO.sleep 500
    watchFiles job path paths polled.lastSeen

def runOnMachine (words : List Text) : IO UInt32 := do
  let paths :=
    match Arguments.ofTexts words with
    | .ok arguments => arguments.paths
    | .error _ => []
  let tree ← loadPaths paths
  match start words tree with
  | .error outcome => conclude tree outcome
  | .ok (arguments, job) =>
    if job.watch then
      match job.input with
      | none => exitCode (.failed .watchNeedsInput)
      | some path =>
        print ⟨[], Watched.watchingLine path⟩
        watchFiles job path paths 0
    else
      let standardInput ←
        if arguments.input = some Arguments.standardInput then readStandardInput
        else pure (.ok [])
      conclude tree (runOnce arguments job tree standardInput)

end ScriptLiterals.Command

def main (words : List String) : IO UInt32 :=
  ScriptLiterals.Command.runOnMachine (words.map String.toList)
