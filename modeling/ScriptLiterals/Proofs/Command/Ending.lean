import ScriptLiterals.Proofs.Command.Message
import ScriptLiterals.Proofs.Command.Once
import ScriptLiterals.Proofs.File.Refused

/-!
How runs end. What is wrong with the values of the settings file or with the input file is reported
on one line. A settings file that may not be looked at or opened, or that is nested too deep, a
standard input that cannot be read or decoded, an output that cannot be written and a NUL in the
input path end the run unreported. Watching goes on whatever the files hold.

Main statement: `run_reports_or_fails`.
-/

namespace ScriptLiterals.Command

variable {words : List Text} {tree : FileTree} {standardInput : StandardInput}
  {arguments : Arguments} {job : Job} {script : Option Script} {message : Text} {failure : Failure}
  {path : Path} {bytes : List UInt8}

/-- Why arguments come to no job: they ask for nothing or for no input to watch, or the settings file
holds no text, no document or no valid settings. -/
inductive Arguments.Refused (arguments : Arguments) (tree : FileTree) : JobError → Prop
  | refusal {e : JobError} (refused : arguments.refusal? = some e) : Refused arguments tree e
  | undecodable {bytes : List UInt8} {e : Text.Utf8Error} (accepted : arguments.refusal? = none)
      (present : tree.isFile arguments.configPath = .ok true)
      (contents : tree.read arguments.configPath = .ok bytes)
      (undecodable : Text.ofUtf8 bytes = .error e) : Refused arguments tree (.undecodable e)
  | malformed {bytes : List UInt8} {text : Text} {e : Toml.Error}
      (accepted : arguments.refusal? = none)
      (present : tree.isFile arguments.configPath = .ok true)
      (contents : tree.read arguments.configPath = .ok bytes)
      (decoded : Text.ofUtf8 bytes = .ok text) (malformed : Toml.Document.tables text = .error e)
      (shallow : e.fault ≠ .nestedTooDeep) : Refused arguments tree (.document e)
  | invalid {config : Toml.Table} {e : SettingsError} (accepted : arguments.refusal? = none)
      (loaded : readSettingsFile tree arguments.configPath = .ok config)
      (invalid : (arguments.settings config).check = .error e) : Refused arguments tree (.settings e)

/-- What keeps a run from its settings without a report: it cannot be told whether there is a file,
the file cannot be read, or its values are nested too deep. -/
inductive Arguments.Unresolved (arguments : Arguments) (tree : FileTree) : Failure → Prop
  | unseen {e : FileError} (accepted : arguments.refusal? = none)
      (unseen : tree.isFile arguments.configPath = .error e) : Unresolved arguments tree (.file e)
  | unread {e : FileError} (accepted : arguments.refusal? = none)
      (present : tree.isFile arguments.configPath = .ok true)
      (unread : tree.read arguments.configPath = .error e) : Unresolved arguments tree (.file e)
  | nestedTooDeep {bytes : List UInt8} {text : Text} {e : Toml.Error}
      (accepted : arguments.refusal? = none)
      (present : tree.isFile arguments.configPath = .ok true)
      (contents : tree.read arguments.configPath = .ok bytes)
      (decoded : Text.ofUtf8 bytes = .ok text) (malformed : Toml.Document.tables text = .error e)
      (deep : e.fault = .nestedTooDeep) : Unresolved arguments tree .nestedTooDeep

inductive Arguments.Reported (arguments : Arguments) (tree : FileTree) : Text → Prop
  | noJob {e : JobError} (refused : arguments.Refused tree e) : Reported arguments tree e.message
  | unreadInput {job : Job} {path : Path} {e : FileError} (resolved : arguments.toJob tree = .ok job)
      (once : arguments.watch = false) (present : arguments.inputPath? = some path)
      (regular : path.hasNul = false) (unread : tree.read path = .error e) :
      Reported arguments tree e.message
  | undecodableInput {job : Job} {path : Path} {bytes : List UInt8} {e : Text.Utf8Error}
      (resolved : arguments.toJob tree = .ok job) (once : arguments.watch = false)
      (present : arguments.inputPath? = some path) (contents : tree.read path = .ok bytes)
      (undecodable : Text.ofUtf8 bytes = .error e) : Reported arguments tree e.message

/-- What ends a run that does its job once without a report. -/
inductive Arguments.Unreported (arguments : Arguments) (tree : FileTree)
    (standardInput : StandardInput) : Failure → Prop
  | settings {failure : Failure} (unresolved : arguments.Unresolved tree failure) :
      Unreported arguments tree standardInput failure
  | unreadStream {job : Job} {e : SystemError} (resolved : arguments.toJob tree = .ok job)
      (asked : arguments.input = some Arguments.standardInput) (unread : standardInput = .error e) :
      Unreported arguments tree standardInput (.stream e)
  | undecodableStream {job : Job} {bytes : List UInt8} {e : Text.Utf8Error}
      (resolved : arguments.toJob tree = .ok job)
      (asked : arguments.input = some Arguments.standardInput)
      (contents : standardInput = .ok bytes) (undecodable : Text.ofUtf8 bytes = .error e) :
      Unreported arguments tree standardInput (.undecodable e)
  | nulInInput {job : Job} {path : Path} (resolved : arguments.toJob tree = .ok job)
      (present : arguments.inputPath? = some path) (nul : path.hasNul = true) :
      Unreported arguments tree standardInput (.file ⟨.nulInPath, path⟩)
  | unwritable {job : Job} {script : Option Script} {path : Path} {e : FileError} {left : FileTree}
      (resolved : arguments.toJob tree = .ok job)
      (readable : arguments.Reads tree standardInput script) (given : job.output = some path)
      (unwritten : tree.write path (job.report script).text.toUtf8 = .error (e, left)) :
      Unreported arguments tree standardInput (.file e)

def Outcome.undone (message : Text) (tree : FileTree) : Outcome Ending :=
  ⟨.finished .undone, [], "error: ".toList ++ message ++ ['\n'], tree⟩

theorem Arguments.Reported.newline_not_mem (reported : arguments.Reported tree message) :
    '\n' ∉ message := by
  cases reported with
  | noJob => exact JobError.newline_not_mem_message _
  | unreadInput => exact FileError.newline_not_mem_message _
  | undecodableInput => exact Text.Utf8Error.newline_not_mem_message _

theorem readSettingsFile_of_decoded {text : Text} (present : tree.isFile path = .ok true)
    (contents : tree.read path = .ok bytes) (decoded : Text.ofUtf8 bytes = .ok text) :
    readSettingsFile tree path = (Toml.Document.tables text).mapError .document := by
  simp only [readSettingsFile, present, contents, decoded]

theorem readSettingsFile_of_malformed {text : Text} {e : Toml.Error}
    (present : tree.isFile path = .ok true) (contents : tree.read path = .ok bytes)
    (decoded : Text.ofUtf8 bytes = .ok text) (malformed : Toml.Document.tables text = .error e) :
    readSettingsFile tree path = .error (.document e) := by
  rw [readSettingsFile_of_decoded present contents decoded, malformed]
  rfl

theorem Arguments.Refused.toJob_eq {e : JobError} (refused : arguments.Refused tree e) :
    arguments.toJob tree = .error e := by
  cases refused with
  | refusal refused => simp [toJob, refused]
  | undecodable accepted present contents undecodable =>
    simp [toJob, accepted, readSettingsFile, present, contents, undecodable]
  | malformed accepted present contents decoded malformed =>
    simp only [toJob, accepted, readSettingsFile_of_malformed present contents decoded malformed]
  | invalid accepted loaded invalid => simp [toJob, accepted, loaded, job, invalid]

theorem Arguments.Refused.withoutJob_eq {e : JobError} (refused : arguments.Refused tree e) :
    withoutJob e tree = .undone e.message tree := by
  have reported : e.unreported? = none := by
    cases refused with
    | refusal refused =>
      unfold refusal? at refused
      split_ifs at refused <;> cases refused <;> rfl
    | undecodable => rfl
    | malformed _ _ _ _ _ shallow => exact if_neg shallow
    | invalid => rfl
  simp only [withoutJob, reported, Outcome.undone]

theorem Arguments.Unresolved.toJob_eq (unresolved : arguments.Unresolved tree failure) :
    ∃ e, arguments.toJob tree = .error e ∧ withoutJob e tree = ⟨.failed failure, [], [], tree⟩ := by
  cases unresolved with
  | @unseen e accepted unseen =>
    exact ⟨.file e, by simp [toJob, accepted, readSettingsFile, unseen], rfl⟩
  | @unread e accepted present unread =>
    exact ⟨.file e, by simp [toJob, accepted, readSettingsFile, present, unread], rfl⟩
  | @nestedTooDeep bytes text e accepted present contents decoded malformed deep =>
    refine ⟨.document e, ?_, by simp [withoutJob, JobError.unreported?, deep]⟩
    simp only [toJob, accepted, readSettingsFile_of_malformed present contents decoded malformed]

theorem Arguments.toJob_of_loaded {config : Toml.Table} (accepted : arguments.refusal? = none)
    (loaded : readSettingsFile tree arguments.configPath = .ok config) :
    (∃ job, arguments.toJob tree = .ok job) ∨ ∃ e, arguments.Refused tree e := by
  cases checked : (arguments.settings config).check with
  | ok options =>
    left
    exact ⟨_, toJob_eq_ok_iff.mpr ⟨accepted, config, options, loaded, checked, rfl⟩⟩
  | error e => exact .inr ⟨_, .invalid accepted loaded checked⟩

theorem Arguments.toJob_cases (arguments : Arguments) (tree : FileTree) :
    ((∃ job, arguments.toJob tree = .ok job) ∨ ∃ e, arguments.Refused tree e) ∨
      ∃ failure, arguments.Unresolved tree failure := by
  -- along the steps of reading the settings, each of which can fail
  cases accepted : arguments.refusal? with
  | some e => exact .inl (.inr ⟨e, .refusal accepted⟩)
  | none =>
    cases present : tree.isFile arguments.configPath with
    | error e => exact .inr ⟨_, .unseen accepted present⟩
    | ok found =>
      cases found with
      | false => exact .inl (toJob_of_loaded accepted (readSettingsFile_of_absent present))
      | true =>
        cases contents : tree.read arguments.configPath with
        | error e => exact .inr ⟨_, .unread accepted present contents⟩
        | ok bytes =>
          cases decoded : Text.ofUtf8 bytes with
          | error e => exact .inl (.inr ⟨_, .undecodable accepted present contents decoded⟩)
          | ok text =>
            cases tables : Toml.Document.tables text with
            | error e =>
              by_cases deep : e.fault = .nestedTooDeep
              · exact .inr ⟨_, .nestedTooDeep accepted present contents decoded tables deep⟩
              · exact .inl (.inr ⟨_, .malformed accepted present contents decoded tables deep⟩)
            | ok config =>
              have loaded := readSettingsFile_of_decoded present contents decoded
              rw [tables] at loaded
              exact .inl (toJob_of_loaded accepted loaded)

theorem runWatched_of_toJob_error {e : JobError} (parsed : Arguments.ofTexts words = .ok arguments)
    (failed : arguments.toJob tree = .error e) (changes : List (FileTree → FileTree)) :
    runWatched words tree standardInput changes = .ofOutcome (withoutJob e tree) := by
  simp only [runWatched, start, parsed, failed]

theorem run_of_toJob_error {e : JobError} (parsed : Arguments.ofTexts words = .ok arguments)
    (failed : arguments.toJob tree = .error e) :
    run words tree standardInput = withoutJob e tree := by
  simp [run, runWatched_of_toJob_error parsed failed, Watched.ofOutcome,
    LogEntry.flatMap_ifWritten_output, LogEntry.flatMap_ifWritten_errorOutput]

theorem Arguments.standardText?_of_inputPath? (present : arguments.inputPath? = some path) :
    arguments.standardText? standardInput = .ok none := by
  apply if_neg
  intro asked
  simp [inputPath?, asked] at present

theorem Arguments.fields_of_toJob (resolved : arguments.toJob tree = .ok job) :
    job.input = arguments.inputPath? ∧ job.output = path? arguments.output ∧
      job.watch = arguments.watch := by
  obtain ⟨-, config, options, -, -, rfl⟩ := toJob_eq_ok_iff.mp resolved
  exact ⟨rfl, rfl, rfl⟩

theorem runOnce_of_script_error (present : arguments.inputPath? = some path)
    (failed : job.script tree none = .error failure) :
    runOnce arguments job tree standardInput =
      if failure.isReported then .undone failure.message tree
      else ⟨.failed failure, [], [], tree⟩ := by
  simp only [runOnce, Arguments.standardText?_of_inputPath? present, Job.run, failed]
  cases failure.isReported <;> rfl

theorem Job.script_of_unread {e : FileError} (input : job.input = some path)
    (unread : tree.read path = .error e) : job.script tree none = .error (.file e) := by
  simp [script, input, unread]

theorem Job.script_of_undecodable {e : Text.Utf8Error}
    (input : job.input = some path) (contents : tree.read path = .ok bytes)
    (undecodable : Text.ofUtf8 bytes = .error e) :
    job.script tree none = .error (.undecodable e) := by
  simp [script, input, contents, decodeInput, undecodable, Except.map]

theorem run_of_reported (parsed : Arguments.ofTexts words = .ok arguments)
    (reported : arguments.Reported tree message) :
    run words tree standardInput = .undone message tree := by
  cases reported with
  | noJob refused => rw [run_of_toJob_error parsed refused.toJob_eq, refused.withoutJob_eq]
  | @unreadInput job path e resolved once present regular unread =>
    have input := (Arguments.fields_of_toJob resolved).1.trans present
    have known : Failure.isReported (.file e) = true := by
      rw [Failure.isReported, FileTree.isFromFileSystem_of_read unread, regular]
      rfl
    rw [run_of_once parsed resolved once,
      runOnce_of_script_error present (Job.script_of_unread input unread), if_pos known]
    rfl
  | @undecodableInput job path bytes e resolved once present contents undecodable =>
    have input := (Arguments.fields_of_toJob resolved).1.trans present
    rw [run_of_once parsed resolved once, runOnce_of_script_error present
      (Job.script_of_undecodable input contents undecodable)]
    rfl

theorem run_of_unreported (parsed : Arguments.ofTexts words = .ok arguments)
    (once : arguments.watch = false) (unreported : arguments.Unreported tree standardInput failure) :
    (run words tree standardInput).result = .failed failure := by
  cases unreported with
  | settings unresolved =>
    obtain ⟨e, failed, ended⟩ := unresolved.toJob_eq
    rw [run_of_toJob_error parsed failed, ended]
  | @unreadStream job e resolved asked unread =>
    rw [run_of_once parsed resolved once]
    simp [runOnce, Arguments.standardText?, asked, unread]
  | @undecodableStream job bytes e resolved asked contents undecodable =>
    rw [run_of_once parsed resolved once]
    simp [runOnce, Arguments.standardText?, asked, contents, decodeInput, undecodable, Except.map]
  | @nulInInput job path resolved present nul =>
    have input := (Arguments.fields_of_toJob resolved).1.trans present
    have unread : tree.read path = .error ⟨.nulInPath, path⟩ :=
      FileTree.read_of_resolve_error ((tree.resolve_eq_nulInPath_iff path).mpr nul)
    rw [run_of_once parsed resolved once,
      runOnce_of_script_error present (Job.script_of_unread input unread)]
    rfl
  | @unwritable job script path e left resolved readable given unwritten =>
    obtain ⟨text, asked, read⟩ := readable.script_eq (Arguments.fields_of_toJob resolved).1
    rw [run_of_once parsed resolved once]
    simp [runOnce, asked, Job.run, read, Job.deliver, given, unwritten, Except.map, Ending.ofJob]

theorem Arguments.reads_cases (arguments : Arguments) (tree : FileTree)
    (standardInput : StandardInput) :
    (∃ script, arguments.Reads tree standardInput script) ∨
    (arguments.input = some Arguments.standardInput ∧ ((∃ e, standardInput = .error e) ∨
      ∃ bytes e, standardInput = .ok bytes ∧ Text.ofUtf8 bytes = .error e)) ∨
    ∃ path, arguments.inputPath? = some path ∧ ((∃ e, tree.read path = .error e) ∨
      ∃ bytes e, tree.read path = .ok bytes ∧ Text.ofUtf8 bytes = .error e) := by
  by_cases asked : arguments.input = some Arguments.standardInput
  · cases contents : standardInput with
    | error e => exact .inr (.inl ⟨asked, .inl ⟨e, rfl⟩⟩)
    | ok bytes =>
      cases decoded : Text.ofUtf8 bytes with
      | ok text => exact .inl ⟨_, .stream asked rfl decoded⟩
      | error e => exact .inr (.inl ⟨asked, .inr ⟨bytes, e, rfl, decoded⟩⟩)
  · cases present : arguments.inputPath? with
    | none => exact .inl ⟨_, .nothing asked present⟩
    | some path =>
      cases contents : tree.read path with
      | error e => exact .inr (.inr ⟨path, rfl, .inl ⟨e, contents⟩⟩)
      | ok bytes =>
        cases decoded : Text.ofUtf8 bytes with
        | error e => exact .inr (.inr ⟨path, rfl, .inr ⟨bytes, e, contents, decoded⟩⟩)
        | ok text => exact .inl ⟨_, .file asked present contents decoded⟩

theorem Job.deliver_cases (job : Job) (tree : FileTree) (text : Text) :
    (∃ delivered, job.deliver tree text = .ok delivered) ∨
      ∃ path e left, job.output = some path ∧ tree.write path text.toUtf8 = .error (e, left) := by
  cases given : job.output with
  | none => exact .inl ⟨_, by simp [deliver, given]; rfl⟩
  | some path =>
    cases wrote : tree.write path text.toUtf8 with
    | ok written => exact .inl ⟨_, by simp [deliver, given, wrote, Except.map]; rfl⟩
    | error failed => exact .inr ⟨path, failed.1, failed.2, rfl, wrote⟩

theorem run_of_delivered {delivered : Text × FileTree}
    (parsed : Arguments.ofTexts words = .ok arguments)
    (resolved : arguments.toJob tree = .ok job) (once : arguments.watch = false)
    (readable : arguments.Reads tree standardInput script)
    (delivers : job.deliver tree (job.report script).text = .ok delivered) :
    ∃ status, (run words tree standardInput).result = .finished status := by
  obtain ⟨text, asked, read⟩ := readable.script_eq (Arguments.fields_of_toJob resolved).1
  rw [run_of_once parsed resolved once]
  simp only [runOnce, asked, Job.run, read, delivers, Ending.ofJob]
  exact ⟨_, rfl⟩

theorem run_once_cases (parsed : Arguments.ofTexts words = .ok arguments)
    (once : arguments.watch = false) :
    (∃ status, (run words tree standardInput).result = .finished status) ∨
      ∃ failure, arguments.Unreported tree standardInput failure := by
  rcases arguments.toJob_cases tree with
    (⟨job, resolved⟩ | ⟨e, refused⟩) | ⟨failure, unresolved⟩
  · rcases arguments.reads_cases tree standardInput with
      ⟨script, readable⟩ | ⟨asked, ⟨e, unread⟩ | ⟨bytes, e, contents, undecodable⟩⟩ |
        ⟨path, present, ⟨e, unread⟩ | ⟨bytes, e, contents, undecodable⟩⟩
    · rcases job.deliver_cases tree (job.report script).text with
        ⟨delivered, delivers⟩ | ⟨path, e, left, given, unwritten⟩
      · exact .inl (run_of_delivered parsed resolved once readable delivers)
      · exact .inr ⟨_, .unwritable resolved readable given unwritten⟩
    · exact .inr ⟨_, .unreadStream resolved asked unread⟩
    · exact .inr ⟨_, .undecodableStream resolved asked contents undecodable⟩
    · cases nul : path.hasNul with
      | true => exact .inr ⟨_, .nulInInput resolved present nul⟩
      | false =>
        rw [run_of_reported parsed (.unreadInput resolved once present nul unread)]
        exact .inl ⟨_, rfl⟩
    · rw [run_of_reported parsed (.undecodableInput resolved once present contents undecodable)]
      exact .inl ⟨_, rfl⟩
  · rw [run_of_reported parsed (.noJob refused)]
    exact .inl ⟨_, rfl⟩
  · exact .inr ⟨_, .settings unresolved⟩

theorem run_failed_iff (parsed : Arguments.ofTexts words = .ok arguments)
    (once : arguments.watch = false) (failure : Failure) :
    (run words tree standardInput).result = .failed failure ↔
      arguments.Unreported tree standardInput failure := by
  constructor
  · intro failed
    rcases @run_once_cases words tree standardInput arguments parsed once with
      ⟨status, done⟩ | ⟨other, unreported⟩
    · rw [failed] at done
      contradiction
    · have same := run_of_unreported parsed once unreported
      rw [failed] at same
      obtain rfl := Ending.failed.inj same
      exact unreported
  · exact run_of_unreported parsed once

theorem Watched.polls_ending_cases (job : Job) (path : Path) (printed : Text) (lastSeen : Int)
    (tree : FileTree) (changes : List (FileTree → FileTree)) :
    (polls job path printed lastSeen tree changes).ending = .finished .converted ∨
      ∃ last found failure, (job.poll path last found).failure = some failure ∧
        (polls job path printed lastSeen tree changes).ending = .failed failure := by
  -- induction on the changes, with whatever the polls before have left
  induction changes generalizing printed lastSeen tree with
  | nil =>
    cases ends : (job.poll path lastSeen tree).failure with
    | none => simp [polls, ends]
    | some failure => exact .inr ⟨lastSeen, tree, failure, ends, by simp [polls, ends]⟩
  | cons change changes ih =>
    cases ends : (job.poll path lastSeen tree).failure with
    | none =>
      simp only [polls, ends]
      exact ih ..
    | some failure => exact .inr ⟨lastSeen, tree, failure, ends, by simp [polls, ends]⟩

section Watching

variable (input : job.input = some path) (regular : path.hasNul = false)
  (regularOutput : ∀ output ∈ job.output, output.hasNul = false)

include input regular in
theorem Job.isReported_of_script (failed : job.script tree none = .error failure) :
    failure.isReported = true := by
  cases contents : tree.read path with
  | error e =>
    obtain rfl := Except.error.inj ((script_of_unread input contents).symm.trans failed)
    rw [Failure.isReported, FileTree.isFromFileSystem_of_read contents, regular]
    rfl
  | ok bytes =>
    cases decoded : Text.ofUtf8 bytes with
    | error e =>
      have undecodable := script_of_undecodable input contents decoded
      obtain rfl := Except.error.inj (undecodable.symm.trans failed)
      rfl
    | ok text => simp [script, input, contents, decodeInput, decoded, Except.map] at failed

include input regular in
/-- What goes wrong while a watched input is checked is about the files, but for a NUL in the path of
the output. -/
theorem Job.run_error_cases (failed : (job.run tree none).result = .error failure) :
    failure.isReported = true ∨
      ∃ output ∈ job.output, output.hasNul = true ∧ failure = .file ⟨.nulInPath, output⟩ := by
  cases read : job.script tree none with
  | error other =>
    have known := isReported_of_script input regular read
    simp [run, read, known] at failed
  | ok script =>
    rcases job.deliver_cases tree (job.report script).text with
      ⟨delivered, delivers⟩ | ⟨output, e, left, given, unwritten⟩
    · simp [run, read, delivers] at failed
    · obtain rfl : Failure.file e = failure := by
        simpa [run, read, deliver, given, unwritten, Except.map] using failed
      cases nul : output.hasNul with
      | false =>
        left
        rw [Failure.isReported, FileTree.isFromFileSystem_of_write unwritten, nul]
        rfl
      | true =>
        have refused := (tree.resolve_eq_nulInPath_iff output).mpr nul
        rw [FileTree.write_of_resolve_error refused] at unwritten
        cases unwritten
        exact .inr ⟨output, given, nul, rfl⟩

include input regular in
theorem Job.poll_failure_cases (lastSeen : Int) (tree : FileTree) :
    (job.poll path lastSeen tree).failure = none ∨
      ∃ output ∈ job.output, output.hasNul = true ∧
        (job.poll path lastSeen tree).failure = some (.file ⟨.nulInPath, output⟩) := by
  unfold poll
  cases seen : tree.modified path with
  | error e =>
    have known := FileTree.isFromFileSystem_of_modified seen
    rw [regular] at known
    simp [known]
  | ok modified =>
    by_cases same : modified = lastSeen
    · simp [same]
    · simp only [if_neg same, check]
      split
      · exact .inl rfl
      · exact .inl rfl
      · next failure failed =>
        rcases run_error_cases input regular failed with known | ⟨output, given, nul, rfl⟩
        · rw [if_pos known]
          exact .inl rfl
        · exact .inr ⟨output, given, nul, rfl⟩

include input regular regularOutput in
theorem Job.poll_failure (lastSeen : Int) (tree : FileTree) :
    (job.poll path lastSeen tree).failure = none := by
  rcases poll_failure_cases input regular lastSeen tree with none | ⟨output, given, nul, -⟩
  · exact none
  · rw [regularOutput output given] at nul
    contradiction

include input regular in
/-- No change of the files ends the watching, but for a NUL in the path of the output. -/
theorem Watched.polls_ending (printed : Text) (lastSeen : Int) (tree : FileTree)
    (changes : List (FileTree → FileTree)) :
    (polls job path printed lastSeen tree changes).ending = .finished .converted ∨
      ∃ output ∈ job.output, output.hasNul = true ∧
        (polls job path printed lastSeen tree changes).ending = .failed (.file ⟨.nulInPath, output⟩) := by
  rcases polls_ending_cases job path printed lastSeen tree changes with
    interrupted | ⟨last, found, failure, failed, ended⟩
  · exact .inl interrupted
  · right
    rcases Job.poll_failure_cases input regular last found with none | ⟨output, given, nul, failed'⟩
    · rw [failed] at none
      contradiction
    · rw [failed] at failed'
      cases failed'
      exact ⟨output, given, nul, ended⟩

end Watching

theorem Watched.polls_of_hasNul (nul : path.hasNul = true) (printed : Text) (lastSeen : Int)
    (tree : FileTree) (changes : List (FileTree → FileTree)) :
    (polls job path printed lastSeen tree changes).ending = .failed (.file ⟨.nulInPath, path⟩) := by
  have refused := (tree.resolve_eq_nulInPath_iff path).mpr nul
  have failed : (job.poll path lastSeen tree).failure = some (.file ⟨.nulInPath, path⟩) := by
    simp only [Job.poll, FileTree.modified_of_resolve_error refused]
    rfl
  unfold polls
  simp only [failed]

/-- What is wrong with the settings or the input file is reported on one line with exit code 2. A
settings file that cannot be read fails every run. A run that does its job once fails exactly where
nothing is reported. A watched one fails without an input and at a NUL in a path, and goes on until
it is interrupted otherwise, whatever becomes of the files. -/
theorem run_reports_or_fails (parsed : Arguments.ofTexts words = .ok arguments) :
    (∀ message, arguments.Reported tree message → '\n' ∉ message ∧
      run words tree standardInput =
        ⟨.finished .undone, [], "error: ".toList ++ message ++ ['\n'], tree⟩) ∧
    (∀ failure, arguments.Unresolved tree failure → ∀ changes,
      (runWatched words tree standardInput changes).ending = .failed failure) ∧
    (arguments.watch = false →
      (∀ failure, (run words tree standardInput).result = .failed failure ↔
        arguments.Unreported tree standardInput failure) ∧
      ((∀ failure, ¬ arguments.Unreported tree standardInput failure) →
        ∃ status, (run words tree standardInput).result = .finished status)) ∧
    ∀ job, arguments.watch = true → arguments.toJob tree = .ok job → ∀ changes,
      let ending := (runWatched words tree standardInput changes).ending
      (job.input = none → ending = .failed .watchNeedsInput) ∧
      ∀ path, job.input = some path →
        (path.hasNul = true → ending = .failed (.file ⟨.nulInPath, path⟩)) ∧
        (path.hasNul = false → ending = .finished .converted ∨
          ∃ output ∈ job.output, output.hasNul = true ∧
            ending = .failed (.file ⟨.nulInPath, output⟩)) := by
  refine ⟨?_, ?_, ?_, ?_⟩
  · intro message reported
    exact ⟨reported.newline_not_mem, run_of_reported parsed reported⟩
  · intro failure unresolved changes
    obtain ⟨e, failed, ended⟩ := unresolved.toJob_eq
    rw [runWatched_of_toJob_error parsed failed, ended]
    rfl
  · intro once
    refine ⟨run_failed_iff parsed once, ?_⟩
    intro answered
    rcases @run_once_cases words tree standardInput arguments parsed once with
      done | ⟨failure, unreported⟩
    · exact done
    · exact absurd unreported (answered failure)
  · intro job watch resolved changes ending
    have started : start words tree = .ok (arguments, job) := start_eq_ok_iff.mpr ⟨parsed, resolved⟩
    have watched := (Arguments.fields_of_toJob resolved).2.2.trans watch
    have loop : ending = (Watched.ofJob job tree changes).ending := by
      simp only [ending, runWatched, started, watched, if_true]
    rw [loop]
    constructor
    · intro input
      simp only [Watched.ofJob, input]
    · intro path input
      simp only [Watched.ofJob, input]
      constructor
      · intro nul
        exact Watched.polls_of_hasNul nul _ _ _ _
      · intro regular
        exact Watched.polls_ending input regular _ _ _ _

theorem run_reports_missing_input :
    run ["s".toList] {} (.ok []) = ⟨.finished .undone, [],
        "error: ".toList ++ "[Errno 2] No such file or directory: 's'".toList ++ ['\n'], {}⟩ ∧
      ∀ failure, (run ["s".toList] {} (.ok [])).result ≠ .failed failure := by
  have parsed : Arguments.ofTexts ["s".toList] = .ok { input := some "s".toList } := by
    decide +kernel
  have resolved : Arguments.toJob { input := some "s".toList } {} =
      .ok ⟨some ⟨.relative, ["s".toList]⟩, none, [], {}, false, false⟩ := by
    decide +kernel
  have unread : FileTree.read {} ⟨.relative, ["s".toList]⟩ =
      .error ⟨.notFound, ⟨.relative, ["s".toList]⟩⟩ := by
    decide +kernel
  have reported : Arguments.Reported { input := some "s".toList } {}
      (FileError.message ⟨.notFound, ⟨.relative, ["s".toList]⟩⟩) :=
    .unreadInput resolved rfl (by decide +kernel) (by decide +kernel) unread
  obtain ⟨reports, -, fails, -⟩ := @run_reports_or_fails ["s".toList] {} (.ok []) _ parsed
  have message : FileError.message ⟨.notFound, ⟨.relative, ["s".toList]⟩⟩ =
      "[Errno 2] No such file or directory: 's'".toList := by
    decide +kernel
  have ended := (reports _ reported).2
  rw [message] at ended
  refine ⟨ended, ?_⟩
  intro failure failed
  rw [ended] at failed
  contradiction

theorem run_fails_on_missing_directory :
    (run ["-l".toList, "1".toList, "-o".toList, "no/out".toList] {} (.ok [])).result =
        .failed (.file ⟨.notFound, ⟨.relative, ["no".toList, "out".toList]⟩⟩) ∧
      (run ["-l".toList, "1".toList, "-o".toList, "no/out".toList] {} (.ok [])).errorOutput = [] := by
  decide +kernel

example :
    let denied : SystemError := ⟨13, "Permission denied".toList, by decide⟩
    (run ["-l".toList, "1".toList, "--config".toList, "c".toList]
      ⟨[⟨⟨.above 0, ["c".toList]⟩, .file [], 1, { read := some denied }⟩], 2⟩ (.ok [])).result =
        .failed (.file ⟨.refused denied, ⟨.relative, ["c".toList]⟩⟩) := by
  decide +kernel

end ScriptLiterals.Command
