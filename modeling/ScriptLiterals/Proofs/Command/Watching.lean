import ScriptLiterals.Proofs.Command.Polls
import ScriptLiterals.Proofs.Command.WithoutWatch

/-!
Checks of a watched run beside runs of the same command line without its request to watch. They have
the same job, since watching is no part of it.

Main statement: `check_is_single_run`.
-/

namespace ScriptLiterals.Command

variable {words : List Text} {tree found : FileTree} {arguments : Arguments} {job : Job}
  {path : Path}

theorem Arguments.toJob_unwatched (resolved : arguments.toJob tree = .ok job)
    (settings : readSettingsFile found arguments.configPath =
      readSettingsFile tree arguments.configPath) :
    arguments.unwatched.toJob found = .ok { job with watch := false } := by
  rcases toJob_eq_ok_iff.mp resolved with ⟨accepted, config, options, loaded, checked, rfl⟩
  apply toJob_eq_ok_iff.mpr
  refine ⟨?_, config, options, ?_, checked, rfl⟩
  · unfold refusal? at accepted ⊢
    split_ifs at accepted with nothing
    exact (if_neg nothing).trans rfl
  · have same : arguments.unwatched.configPath = arguments.configPath := rfl
    rw [same, settings, loaded]

theorem run_withoutWatch (started : start words tree = .ok (arguments, job))
    (input : job.input = some path)
    (settings : readSettingsFile found arguments.configPath =
      readSettingsFile tree arguments.configPath)
    (stream : StandardInput) :
    run (withoutWatch words) found stream =
      ⟨.ofJob (job.run found none).result, (job.run found none).output,
        (job.run found none).errorOutput, (job.run found none).tree⟩ := by
  rcases start_eq_ok_iff.mp started with ⟨parsed, resolved⟩
  have present : arguments.unwatched.inputPath? = some path :=
    (Arguments.fields_of_toJob resolved).1.symm.trans input
  rw [run_of_once (Arguments.ofTexts_withoutWatch parsed)
    (Arguments.toJob_unwatched resolved settings) rfl, runOnce,
    Arguments.standardText?_of_inputPath? present]
  rfl

namespace Watched

theorem runWatched_eq (started : start words tree = .ok (arguments, job))
    (watch : arguments.watch = true) (input : job.input = some path)
    (standardInput : StandardInput) (changes : List (FileTree → FileTree)) :
    runWatched words tree standardInput changes =
      polls job path (watchingLine path) 0 tree changes := by
  have resolved := (start_eq_ok_iff.mp started).2
  have watched := (Arguments.fields_of_toJob resolved).2.2.trans watch
  simp only [runWatched, started, watched, if_true, ofJob, input]

/-- Where a watched run checks its input, it prints and writes what a run without the request to
watch does with the files of that moment, and adds that it has checked the input if the exit code of
that run is 0 or 1. The settings file has to be as it was at the start, and the other run has to
return. -/
theorem check_is_single_run {changes : List (FileTree → FileTree)} {earlier later : List Visit}
    {visit : Visit} (started : start words tree = .ok (arguments, job))
    (watch : arguments.watch = true) (input : job.input = some path)
    (split : visits job path 0 tree changes = earlier ++ visit :: later)
    (checks : visit.Checks job path)
    (settings : readSettingsFile visit.found arguments.configPath =
      readSettingsFile tree arguments.configPath)
    (standardInput stream : StandardInput) :
    let watched := runWatched words tree standardInput changes
    let once := run (withoutWatch words) visit.found stream
    (∀ failure, once.result ≠ .failed failure) →
      (∃ status, once.result = .finished status) ∧
      watched.log[earlier.length]? = some ⟨once.output,
        (if earlier = [] then watchingLine path else []) ++ (once.errorOutput ++
          if once.result.code = 0 ∨ once.result.code = 1 then Job.checkedLine path else [])⟩ ∧
      visit.polled.tree = once.tree ∧ (later = [] → watched.tree = once.tree) := by
  intro watched once returns
  have same : once = _ := run_withoutWatch started input settings stream
  have loop : watched = _ := runWatched_eq started watch input standardInput changes
  rcases checks with ⟨time, -, checked⟩
  cases result : (job.run visit.found none).result with
  | error failure =>
    rw [same, result] at returns
    exact absurd rfl (returns failure)
  | ok status =>
    rw [Job.check_of_done time result] at checked
    -- the closing line and the exit code come from the same status
    have closing :
        (if once.result.code = 0 ∨ once.result.code = 1 then Job.checkedLine path else []) =
          if status = .undone then [] else Job.checkedLine path := by
      rw [same, result]
      cases status <;> rfl
    refine ⟨⟨status, by rw [same, result]; rfl⟩, ?_, ?_, ?_⟩
    · have entry := polls_log (watchingLine path) split (by rw [checked])
      rw [loop, entry, Visit.entry, checked, closing, same]
    · rw [checked, same]
    · intro last
      rw [last] at split
      rw [loop, polls_tree _ split, checked, same]

theorem check_is_single_run_behind_change :
    let words := ["--wat".toList, "s".toList, "-o".toList, "r".toList]
    let fileOf (time : Int) (bytes : List UInt8) : FileTree :=
      ⟨[⟨⟨.above 0, ["s".toList]⟩, .file bytes, time, {}⟩], 9⟩
    let watched := runWatched words (fileOf 5 [0x37]) (.ok []) [fun _ => fileOf 6 [0x38, 0x78]]
    let once := run ["s".toList, "-o".toList, "r".toList] (fileOf 6 [0x38, 0x78]) (.ok [])
    once.result.code = 1 ∧
      watched.log[1]? = some ⟨once.output, once.errorOutput ++ "Checked s\n".toList⟩ ∧
      watched.tree = once.tree := by
  intro words fileOf watched once
  let path : Path := ⟨.relative, ["s".toList]⟩
  let job : Job := ⟨some path, some ⟨.relative, ["r".toList]⟩, [], {}, true, false⟩
  let arguments : Arguments :=
    { input := some "s".toList, output := some "r".toList, watch := true }
  have started : start words (fileOf 5 [0x37]) = .ok (arguments, job) := by
    apply start_eq_ok_iff.mpr
    constructor
    · decide +kernel
    · decide +kernel
  have split : visits job path 0 (fileOf 5 [0x37]) [fun _ => fileOf 6 [0x38, 0x78]] =
      [⟨fileOf 5 [0x37], job.poll path 0 (fileOf 5 [0x37])⟩] ++
        ⟨fileOf 6 [0x38, 0x78], job.poll path 5 (fileOf 6 [0x38, 0x78])⟩ :: [] := by
    decide +kernel
  have checks : Visit.Checks ⟨fileOf 6 [0x38, 0x78], job.poll path 5 (fileOf 6 [0x38, 0x78])⟩ job
      path := by
    apply (job.poll_checks_iff path 5 _).mpr
    exact ⟨6, by decide +kernel, by decide⟩
  have settings : readSettingsFile (fileOf 6 [0x38, 0x78]) arguments.configPath =
      readSettingsFile (fileOf 5 [0x37]) arguments.configPath := by
    rw [readSettingsFile_of_absent (by decide +kernel),
      readSettingsFile_of_absent (by decide +kernel)]
  have ended : once.result = .finished .rejected := by decide +kernel
  have shown : Job.checkedLine path = "Checked s\n".toList := by decide +kernel
  have without : withoutWatch words = ["s".toList, "-o".toList, "r".toList] := by decide +kernel
  have code : once.result.code = 1 := by
    rw [ended]
    rfl
  have check := check_is_single_run started rfl rfl split checks settings (.ok [])
    (.ok [])
  rw [without] at check
  have returns : ∀ failure, once.result ≠ .failed failure := by
    intro failure
    rw [ended]
    exact Ending.noConfusion
  rcases check returns with ⟨-, log, -, left⟩
  rw [if_neg (List.cons_ne_nil _ _), if_pos (.inr code), shown] at log
  exact ⟨code, log, left rfl⟩

end Watched
end ScriptLiterals.Command
