import ScriptLiterals.Command.Watch

/-!
From a command line to its job, and from the job to its run.

Main statements: `toJob_eq_ok_iff` and `run_of_once`.
-/

namespace ScriptLiterals.Command

variable {words : List Text} {tree : FileTree} {standardInput : StandardInput}
  {arguments : Arguments} {job : Job} {script : Option Script} {path : Path}

theorem readSettingsFile_of_absent (absent : tree.isFile path = .ok false) :
    readSettingsFile tree path = .ok [] := by
  simp only [readSettingsFile, absent]

theorem Arguments.job_eq_ok_iff (arguments : Arguments) (config : Toml.Table) (job : Job) :
    arguments.job config = .ok job ↔ ∃ options, (arguments.settings config).check = .ok options ∧
      job = ⟨arguments.inputPath?, path? arguments.output, arguments.literals, options,
        arguments.watch, arguments.debug⟩ := by
  unfold Arguments.job
  cases (arguments.settings config).check with
  | error e => simp
  | ok options => simp [eq_comm]

theorem Arguments.toJob_eq_ok_iff :
    arguments.toJob tree = .ok job ↔
      arguments.refusal? = none ∧ ∃ config options,
        readSettingsFile tree arguments.configPath = .ok config ∧
        (arguments.settings config).check = .ok options ∧
        job = ⟨arguments.inputPath?, path? arguments.output, arguments.literals, options,
          arguments.watch, arguments.debug⟩ := by
  unfold toJob
  cases arguments.refusal? with
  | some e => simp
  | none =>
    cases readSettingsFile tree arguments.configPath with
    | error e => simp
    | ok config => simp [job_eq_ok_iff]

theorem start_eq_ok_iff :
    start words tree = .ok (arguments, job) ↔
      Arguments.ofTexts words = .ok arguments ∧ arguments.toJob tree = .ok job := by
  unfold start
  cases parsed : Arguments.ofTexts words with
  | error halt => cases halt <;> simp
  | ok found =>
    cases resolved : found.toJob tree with
    | error e =>
      simp only [resolved, reduceCtorEq, Except.ok.injEq, false_iff, not_and]
      rintro rfl
      simp [resolved]
    | ok job' =>
      simp only [resolved, Except.ok.injEq, Prod.mk.injEq]
      constructor
      · rintro ⟨rfl, rfl⟩
        exact ⟨rfl, resolved⟩
      · rintro ⟨rfl, same⟩
        exact ⟨rfl, Except.ok.inj (resolved.symm.trans same)⟩

theorem LogEntry.flatMap_ifWritten_output (entry : LogEntry) :
    entry.ifWritten.flatMap (·.output) = entry.output := by
  unfold ifWritten
  split
  · next empty => simp_all
  · simp

theorem LogEntry.flatMap_ifWritten_errorOutput (entry : LogEntry) :
    entry.ifWritten.flatMap (·.errorOutput) = entry.errorOutput := by
  unfold ifWritten
  split
  · next empty => simp_all
  · simp

theorem run_of_once (parsed : Arguments.ofTexts words = .ok arguments)
    (resolved : arguments.toJob tree = .ok job) (once : arguments.watch = false) :
    run words tree standardInput = runOnce arguments job tree standardInput := by
  have started : start words tree = .ok (arguments, job) := start_eq_ok_iff.mpr ⟨parsed, resolved⟩
  obtain ⟨-, config, options, -, -, rfl⟩ := Arguments.toJob_eq_ok_iff.mp resolved
  simp [run, runWatched, started, once, Watched.ofOutcome, LogEntry.flatMap_ifWritten_output,
    LogEntry.flatMap_ifWritten_errorOutput]

end ScriptLiterals.Command
