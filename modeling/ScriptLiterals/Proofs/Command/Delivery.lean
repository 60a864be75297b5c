import ScriptLiterals.Proofs.Command.Ending

/-!
Where the output of a run goes. A run either delivers its whole report to one destination, or it
prints nothing on the standard output and leaves all files as they are, but for a part of the report
where writing broke off.

Main statements: `Job.run_cases` and `runOnce_cases` for a job done once, `runWatched_of_code_eq_two`
for any run, and `writes_report_or_nothing`.
-/

namespace ScriptLiterals.Command

variable {α : Type} {words : List Text} {tree written : FileTree} {standardInput : StandardInput}
  {arguments : Arguments} {job : Job} {script : Option Script} {output text : Text}
  {outcome : Outcome Ending}

def Outcome.WroteNothing (outcome : Outcome α) (tree : FileTree) : Prop :=
  outcome.output = [] ∧ outcome.tree = tree

/-- Nothing was printed, and the files are as before but for a part of the text at a path. -/
def Outcome.WrotePart (outcome : Outcome α) (tree : FileTree) (text : Text) (path : Path) : Prop :=
  outcome.output = [] ∧
    ∃ place count, outcome.tree.IsUpdate tree path place (text.toUtf8.take count)

theorem withoutJob_wroteNothing (e : JobError) (tree : FileTree) :
    (withoutJob e tree).WroteNothing tree := by
  unfold withoutJob
  split <;> exact ⟨rfl, rfl⟩

theorem eq_undone_of_withoutJob {e : JobError} {status : Status}
    (finished : (withoutJob e tree).result = .finished status) : status = .undone := by
  unfold withoutJob at finished
  split at finished
  · contradiction
  · exact (Ending.finished.inj finished).symm

theorem wroteNothing_of_start (ended : start words tree = .error outcome)
    (other : outcome.result ≠ .helpShown) : outcome.WroteNothing tree := by
  unfold start at ended
  split at ended
  · cases Except.error.inj ended
    contradiction
  · cases Except.error.inj ended
    exact ⟨rfl, rfl⟩
  · split at ended
    · cases Except.error.inj ended
      exact withoutJob_wroteNothing _ tree
    · contradiction

namespace Job

theorem delivers_of_deliver (delivered : job.deliver tree text = .ok (output, written)) :
    (∀ path, job.output = some path → tree.IsWritable path text.toUtf8) ∧ ∀ result errorOutput,
      Outcome.Delivers ⟨result, output, errorOutput, written⟩ tree text job.output := by
  have writable : ∀ path, job.output = some path → tree.IsWritable path text.toUtf8 := by
    intro path destination
    simp only [deliver, destination] at delivered
    cases wrote : tree.write path text.toUtf8 with
    | error e => simp [wrote, Except.map] at delivered
    | ok other => exact FileTree.isWritable_iff.mpr ⟨other, wrote⟩
  rcases job.deliver_of_isWritable text writable with ⟨output', written', same, delivers⟩
  rw [delivered, Except.ok.injEq, Prod.mk.injEq] at same
  rw [same.1, same.2]
  exact ⟨writable, delivers⟩

theorem run_cases (job : Job) (tree : FileTree) (text : Option Text) :
    ((job.run tree text).WroteNothing tree ∧
      ∀ status, (job.run tree text).result = .ok status → status = .undone) ∨
    (∃ script path e, job.script tree text = .ok script ∧ job.output = some path ∧
      (job.run tree text).result = .error (.file e) ∧
      (job.run tree text).WrotePart tree (job.report script).text path) ∨
    ∃ script status, job.script tree text = .ok script ∧
      (job.run tree text).result = .ok status ∧ status ≠ .undone ∧
      job.deliver tree (job.report script).text =
        .ok ((job.run tree text).output, (job.run tree text).tree) := by
  cases read : job.script tree text with
  | error failure =>
    left
    cases reported : failure.isReported <;> simp [run, read, reported, Outcome.WroteNothing]
  | ok script =>
    rcases job.deliver_cases tree (job.report script).text with
      ⟨delivered, delivers⟩ | ⟨path, e, left, given, unwritten⟩
    · right
      right
      refine ⟨script, if (job.report script).errors.isEmpty then .converted else .rejected, rfl, ?_⟩
      simp only [run, read, delivers]
      split <;> simp
    · have ran : job.run tree text = ⟨.error (.file e), [], job.listing script, left⟩ := by
        simp [run, read, deliver, given, unwritten, Except.map]
      rw [ran]
      rcases FileTree.write_eq_error unwritten with unchanged | part
      · exact .inl ⟨⟨rfl, unchanged⟩, by simp⟩
      · exact .inr (.inl ⟨script, path, e, rfl, given, rfl, rfl, part⟩)

end Job

theorem Arguments.reads_of_script {text : Option Text} (input : job.input = arguments.inputPath?)
    (asked : arguments.standardText? standardInput = .ok text)
    (read : job.script tree text = .ok script) : arguments.Reads tree standardInput script := by
  rcases arguments.reads_cases tree standardInput with
    ⟨other, reads⟩ | ⟨stream, ⟨e, unread⟩ | ⟨bytes, e, contents, undecodable⟩⟩ |
      ⟨path, present, unreadable⟩
  · rcases reads.script_eq input with ⟨text', asked', read'⟩
    cases Except.ok.inj (asked.symm.trans asked')
    cases Except.ok.inj (read.symm.trans read')
    exact reads
  · simp [standardText?, stream, unread] at asked
  · simp [standardText?, stream, contents, decodeInput, undecodable, Except.map] at asked
  · cases Except.ok.inj ((standardText?_of_inputPath? present).symm.trans asked)
    rw [present] at input
    rcases unreadable with ⟨e, unread⟩ | ⟨bytes, e, contents, undecodable⟩
    · rw [Job.script_of_unread input unread] at read
      contradiction
    · rw [Job.script_of_undecodable input contents undecodable] at read
      contradiction

theorem runOnce_cases (resolved : arguments.toJob tree = .ok job) (standardInput : StandardInput) :
    ((runOnce arguments job tree standardInput).WroteNothing tree ∧
      ∀ status, (runOnce arguments job tree standardInput).result = .finished status →
        status = .undone) ∨
    (∃ script path failure, arguments.Reads tree standardInput script ∧ job.output = some path ∧
      (runOnce arguments job tree standardInput).result = .failed failure ∧
      (runOnce arguments job tree standardInput).WrotePart tree (job.report script).text path) ∨
    ∃ script status, arguments.Reads tree standardInput script ∧
      (runOnce arguments job tree standardInput).result = .finished status ∧ status ≠ .undone ∧
      (∀ path, job.output = some path →
        tree.IsWritable path (job.report script).text.toUtf8) ∧
      (runOnce arguments job tree standardInput).Delivers tree (job.report script).text
        job.output := by
  have input := (Arguments.fields_of_toJob resolved).1
  unfold runOnce
  cases asked : arguments.standardText? standardInput with
  | error failure => exact .inl ⟨⟨rfl, rfl⟩, by simp⟩
  | ok text =>
    simp only
    rcases job.run_cases tree text with
      ⟨nothing, undone⟩ | ⟨script, path, e, read, given, result, part⟩ |
        ⟨script, status, read, result, done, delivered⟩
    · refine .inl ⟨nothing, ?_⟩
      intro status ended
      cases result : (job.run tree text).result with
      | error failure => simp [result, Ending.ofJob] at ended
      | ok other =>
        rw [result] at ended
        cases Ending.finished.inj ended
        exact undone status result
    · refine .inr (.inl ⟨script, path, .file e, Arguments.reads_of_script input asked read, given,
        ?_, part⟩)
      rw [result]
      rfl
    · rcases Job.delivers_of_deliver delivered with ⟨writable, delivers⟩
      refine .inr (.inr ⟨script, status, Arguments.reads_of_script input asked read, ?_, done,
        writable, delivers _ _⟩)
      rw [result]
      rfl

theorem Arguments.report_text (resolved : arguments.toJob tree = .ok job) (script : Option Script) :
    (job.report script).text =
      ((Item.all arguments.literals script).filterMap (Item.line? job.options)).flatten := by
  obtain ⟨-, config, options, -, -, fields⟩ := toJob_eq_ok_iff.mp resolved
  rw [job.report_text, fields]

theorem runWatched_of_code_eq_two {changes : List (FileTree → FileTree)}
    (ended : (runWatched words tree standardInput changes).ending.code = 2) :
    ∃ outcome, runWatched words tree standardInput changes = .ofOutcome outcome ∧
      outcome.WroteNothing tree := by
  unfold runWatched at ended ⊢
  cases started : start words tree with
  | error outcome =>
    rw [started] at ended
    refine ⟨outcome, rfl, wroteNothing_of_start started ?_⟩
    intro shown
    simp [Watched.ofOutcome, shown, Ending.code] at ended
  | ok found =>
    rcases found with ⟨arguments, job⟩
    have resolved := (start_eq_ok_iff.mp started).2
    simp only [started] at ended ⊢
    by_cases watch : job.watch = true
    · simp only [if_pos watch, Watched.ofJob] at ended
      cases input : job.input with
      | none => simp [input, Ending.code] at ended
      | some path =>
        simp only [input] at ended
        rcases Watched.polls_ending_cases job path (Watched.watchingLine path) 0 tree changes with
          interrupted | ⟨last, files, failure, -, failed⟩
        · simp [interrupted, Ending.code, Status.code] at ended
        · simp [failed, Ending.code] at ended
    · rw [if_neg watch] at ended ⊢
      rcases runOnce_cases resolved standardInput with
        ⟨nothing, -⟩ | ⟨script, path, failure, -, -, result, -⟩ |
          ⟨script, status, -, result, done, -⟩
      · exact ⟨_, rfl, nothing⟩
      · simp [Watched.ofOutcome, result, Ending.code] at ended
      · simp only [Watched.ofOutcome, result, Ending.code] at ended
        cases status <;> simp_all [Status.code]

/-- A run with exit code 2 writes nothing, whether or not it is asked to watch. A run that does its job
once and ends with exit code 0 or 1 delivers one line for each literal of its arguments and its input
that has a value, all of them to one destination. Any other such run writes nothing either, unless it
fails where its output breaks off, and then only that file has changed. -/
theorem writes_report_or_nothing (words : List Text) (tree : FileTree)
    (standardInput : StandardInput) :
    (∀ changes, let watched := runWatched words tree standardInput changes
      watched.ending.code = 2 → watched.log.flatMap (·.output) = [] ∧ watched.tree = tree) ∧
    ∀ arguments, Arguments.ofTexts words = .ok arguments → arguments.watch = false →
      let outcome := run words tree standardInput
      (∀ status, outcome.result = .finished status → status.code = 0 ∨ status.code = 1 →
        ∃ (job : Job) (script : Option Script) (text : Text), arguments.toJob tree = .ok job ∧
          job.output = Arguments.path? arguments.output ∧
          arguments.Reads tree standardInput script ∧
          text = ((Item.all arguments.literals script).filterMap
            (Item.line? job.options)).flatten ∧
          (∀ path, job.output = some path → tree.IsWritable path text.toUtf8) ∧
          outcome.Delivers tree text job.output) ∧
      ((∀ status, outcome.result = .finished status → status = .undone) →
        outcome.WroteNothing tree ∨
        ∃ (job : Job) (script : Option Script) (text : Text) (path : Path) (failure : Failure),
          arguments.toJob tree = .ok job ∧
          arguments.Reads tree standardInput script ∧
          text = ((Item.all arguments.literals script).filterMap
            (Item.line? job.options)).flatten ∧
          job.output = some path ∧ outcome.result = .failed failure ∧
          outcome.WrotePart tree text path) := by
  constructor
  · intro changes watched two
    rcases runWatched_of_code_eq_two two with ⟨outcome, same, output, files⟩
    simp only [watched, same, Watched.ofOutcome, LogEntry.flatMap_ifWritten_output]
    exact ⟨output, files⟩
  · intro arguments parsed once outcome
    cases resolved : arguments.toJob tree with
    | error e =>
      have ended : outcome = withoutJob e tree := run_of_toJob_error parsed resolved
      rw [ended]
      refine ⟨?_, fun _ => .inl (withoutJob_wroteNothing e tree)⟩
      intro status finished code
      simp [eq_undone_of_withoutJob finished, Status.code] at code
    | ok job =>
      have ended : outcome = runOnce arguments job tree standardInput :=
        run_of_once parsed resolved once
      have lines := Arguments.report_text resolved
      rw [ended]
      rcases runOnce_cases resolved standardInput with
        ⟨nothing, undone⟩ | ⟨script, path, failure, reads, given, result, part⟩ |
          ⟨script, status, reads, result, done, writable, delivers⟩
      · refine ⟨?_, fun _ => .inl nothing⟩
        intro status finished code
        simp [undone status finished, Status.code] at code
      · constructor
        · intro status finished _
          rw [result] at finished
          contradiction
        · intro _
          exact .inr ⟨job, script, _, path, failure, rfl, reads, lines script, given, result, part⟩
      · constructor
        · intro _ _ _
          exact ⟨job, script, _, rfl, (Arguments.fields_of_toJob resolved).2.1, reads, lines script,
            writable, delivers⟩
        · intro undone
          exact absurd (undone status result) done

theorem writes_report_or_nothing_beside_bad_literal :
    let kept := run ["-l".toList, "7".toList, "-l".toList, "8x".toList, "-o".toList, "r".toList] {}
      (.ok [])
    let lost := run ["-l".toList, "7".toList, "s".toList] {} (.ok [])
    (kept.result.code = 1 ∧ kept.output = [] ∧
      kept.tree.read ⟨.relative, ["r".toList]⟩ = .ok (Text.toUtf8 "7\t7\n".toList)) ∧
    lost.result.code = 2 ∧ lost.output = [] ∧ lost.tree = {} := by
  intro kept lost
  let arguments : Arguments :=
    { literals := [some "7".toList, some "8x".toList], output := some "r".toList }
  let job : Job := ⟨none, some ⟨.relative, ["r".toList]⟩, arguments.literals, {}, false, false⟩
  have parsed : Arguments.ofTexts
      ["-l".toList, "7".toList, "-l".toList, "8x".toList, "-o".toList, "r".toList] =
        .ok arguments := by
    decide +kernel
  have resolved : arguments.toJob {} = .ok job := by decide +kernel
  have ended : kept.result = .finished .rejected := by decide +kernel
  have opens : (kept.tree.access ⟨.above 0, ["r".toList]⟩).read = none := by decide +kernel
  have whole : (kept.tree.access ⟨.above 0, ["r".toList]⟩).readBreak = none := by decide +kernel
  constructor
  · obtain ⟨delivers, -⟩ := (writes_report_or_nothing _ {} (.ok [])).2 arguments parsed rfl
    obtain ⟨found, script, text, resolved', -, reads, lines, -, delivered⟩ :=
      delivers .rejected ended (.inr rfl)
    obtain rfl : job = found := Except.ok.inj (resolved.symm.trans resolved')
    obtain rfl : script = none := by
      cases reads with
      | nothing => rfl
      | stream asked => contradiction
      | file _ present => contradiction
    obtain ⟨output, place, update⟩ := delivered
    have leads : FileTree.resolve {} ⟨.relative, ["r".toList]⟩ =
        .ok ⟨.above 0, ["r".toList]⟩ := by
      decide +kernel
    obtain rfl := Except.ok.inj (leads.symm.trans update.resolve_before)
    have text_eq : text = "7\t7\n".toList := lines.trans (by decide +kernel)
    rw [text_eq] at update
    refine ⟨?_, output, update.read_eq opens whole⟩
    rw [ended]
    rfl
  · have code : lost.result.code = 2 := by decide +kernel
    obtain ⟨nothing, -⟩ := writes_report_or_nothing ["-l".toList, "7".toList, "s".toList] {} (.ok [])
    exact ⟨code, nothing [] code⟩

end ScriptLiterals.Command
