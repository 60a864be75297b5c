import ScriptLiterals.Proofs.Command.Ending

/-!
What an accepted job has to do. Arguments that name no input have to hold a literal, and arguments
that ask to watch have to name a file. The empty word passes for an input here, but no file belongs
to it.

Main statements: `refusal?_eq_none_iff`, `inputPath?_eq_none_iff` and
`accepted_has_work_unless_input_is_empty`.
-/

namespace ScriptLiterals.Command

variable {words : List Text} {tree : FileTree} {standardInput : StandardInput}
  {arguments : Arguments} {job : Job} {path : Path} {config : Toml.Table}

/-- The job reads the standard input or a file, or has literals of its own. -/
def Job.HasWork (job : Job) (arguments : Arguments) : Prop :=
  arguments.input = some Arguments.standardInput ∨ job.input ≠ none ∨ job.literals ≠ []

namespace Arguments

theorem refusal?_eq_none_iff (arguments : Arguments) :
    arguments.refusal? = none ↔
      (arguments.input = none → arguments.literals ≠ []) ∧
        (arguments.watch = true →
          arguments.input ≠ none ∧ arguments.input ≠ some Arguments.standardInput) := by
  unfold refusal?
  cases arguments.input <;> cases arguments.watch <;> cases arguments.literals <;> simp

theorem inputPath?_eq_none_iff (arguments : Arguments) :
    arguments.inputPath? = none ↔
      arguments.input = none ∨ arguments.input = some Arguments.standardInput ∨
        arguments.input = some [] := by
  unfold inputPath?
  by_cases stream : arguments.input = some Arguments.standardInput
  · simp [stream]
  · rw [if_neg stream]
    rcases word : arguments.input with _ | _ | ⟨c, rest⟩
    · simp [path?]
    · simp [path?]
    · rw [word] at stream
      simp [path?, stream]

theorem fields_of_job (resolved : arguments.job config = .ok job) :
    job.input = arguments.inputPath? ∧ job.literals = arguments.literals ∧
      job.watch = arguments.watch := by
  rcases (job_eq_ok_iff ..).mp resolved with ⟨options, -, rfl⟩
  exact ⟨rfl, rfl, rfl⟩

theorem hasWork_iff_of_job (accepted : arguments.refusal? = none)
    (resolved : arguments.job config = .ok job) :
    job.HasWork arguments ↔ ¬ (arguments.input = some [] ∧ arguments.literals = []) := by
  rcases fields_of_job resolved with ⟨input, literals, -⟩
  rcases (refusal?_eq_none_iff arguments).mp accepted with ⟨named, -⟩
  rw [Job.HasWork, input, literals, Ne, inputPath?_eq_none_iff]
  constructor
  · rintro (stream | file | given) ⟨empty, nothing⟩
    · simp [empty, Arguments.standardInput] at stream
    · exact file (.inr (.inr empty))
    · exact given nothing
  · intro something
    by_cases given : arguments.literals = []
    · by_cases stream : arguments.input = some Arguments.standardInput
      · exact .inl stream
      · right
        left
        rintro (absent | stream' | empty)
        · exact named absent given
        · exact stream stream'
        · exact something ⟨empty, given⟩
    · exact .inr (.inr given)

theorem input_eq_none_iff_of_watch (accepted : arguments.refusal? = none)
    (resolved : arguments.job config = .ok job) (watch : job.watch = true) :
    job.input = none ↔ arguments.input = some [] := by
  rcases fields_of_job resolved with ⟨input, -, same⟩
  rcases (refusal?_eq_none_iff arguments).mp accepted with ⟨-, file⟩
  rcases file (same.symm.trans watch) with ⟨present, noStream⟩
  rw [input, inputPath?_eq_none_iff]
  simp [present, noStream]

end Arguments

theorem Watched.polls_ne_watchNeedsInput (input : job.input = some path) (printed : Text)
    (lastSeen : Int) (tree : FileTree) (changes : List (FileTree → FileTree)) :
    (polls job path printed lastSeen tree changes).ending ≠ .failed .watchNeedsInput := by
  cases nul : path.hasNul with
  | true => simp [polls_of_hasNul nul]
  | false =>
    rcases polls_ending input nul printed lastSeen tree changes with
      interrupted | ⟨output, -, -, failed⟩
    · simp [interrupted]
    · simp [failed]

theorem Watched.ofJob_ending_eq_watchNeedsInput_iff (job : Job) (tree : FileTree)
    (changes : List (FileTree → FileTree)) :
    (ofJob job tree changes).ending = .failed .watchNeedsInput ↔ job.input = none := by
  unfold ofJob
  cases input : job.input with
  | none => simp
  | some path => simpa using polls_ne_watchNeedsInput input (watchingLine path) 0 tree changes

theorem withoutJob_ne_watchNeedsInput (e : JobError) (tree : FileTree) :
    (withoutJob e tree).result ≠ .failed .watchNeedsInput := by
  have other : e.unreported? ≠ some .watchNeedsInput := by
    unfold JobError.unreported?
    split
    · simp
    · split <;> simp
    · simp
  unfold withoutJob
  split
  · next failure given =>
    intro failed
    exact other (given.trans (congrArg some (Ending.failed.inj failed)))
  · simp

theorem runOnce_ne_watchNeedsInput (parsed : Arguments.ofTexts words = .ok arguments)
    (resolved : arguments.toJob tree = .ok job) (once : arguments.watch = false)
    (standardInput : StandardInput) :
    (runOnce arguments job tree standardInput).result ≠ .failed .watchNeedsInput := by
  rw [← run_of_once parsed resolved once, Ne, run_failed_iff parsed once]
  rintro ⟨unresolved⟩
  cases unresolved

theorem runWatched_ending_eq_watchNeedsInput_iff (parsed : Arguments.ofTexts words = .ok arguments)
    (changes : List (FileTree → FileTree)) :
    (runWatched words tree standardInput changes).ending = .failed .watchNeedsInput ↔
      arguments.watch = true ∧ arguments.input = some [] ∧
        ∃ job, arguments.toJob tree = .ok job := by
  cases resolved : arguments.toJob tree with
  | error e =>
    have other := withoutJob_ne_watchNeedsInput e tree
    simpa [runWatched, start, parsed, resolved, Watched.ofOutcome] using other
  | ok job =>
    have started : start words tree = .ok (arguments, job) := start_eq_ok_iff.mpr ⟨parsed, resolved⟩
    rcases Arguments.toJob_eq_ok_iff.mp resolved with ⟨accepted, config, options, -, checked, fields⟩
    have same := (Arguments.job_eq_ok_iff ..).mpr ⟨options, checked, fields⟩
    have watched := (Arguments.fields_of_job same).2.2
    cases watch : arguments.watch with
    | false =>
      have other := runOnce_ne_watchNeedsInput parsed resolved watch standardInput
      simpa [runWatched, started, watched, watch, Watched.ofOutcome] using other
    | true =>
      rw [watch] at watched
      have missing : (Watched.ofJob job tree changes).ending = .failed .watchNeedsInput ↔
          arguments.input = some [] :=
        (Watched.ofJob_ending_eq_watchNeedsInput_iff job tree changes).trans
          (Arguments.input_eq_none_iff_of_watch accepted same watched)
      simpa [runWatched, started, watched] using missing

/-- An accepted job has something to do, and a file if it is to be watched, unless the input is the
empty word. Then it has nothing to do without literals, and a run that is to watch fails. -/
theorem accepted_has_work_unless_input_is_empty (parsed : Arguments.ofTexts words = .ok arguments) :
    (∀ config job, arguments.refusal? = none → arguments.job config = .ok job →
      (job.HasWork arguments ↔ ¬ (arguments.input = some [] ∧ arguments.literals = [])) ∧
      (job.watch = true → (job.input = none ↔ arguments.input = some []))) ∧
    ∀ tree standardInput changes,
      (runWatched words tree standardInput changes).ending = .failed .watchNeedsInput ↔
        arguments.watch = true ∧ arguments.input = some [] ∧
          ∃ job, arguments.toJob tree = .ok job := by
  constructor
  · intro config job accepted resolved
    constructor
    · exact Arguments.hasWork_iff_of_job accepted resolved
    · exact Arguments.input_eq_none_iff_of_watch accepted resolved
  · intro tree standardInput changes
    exact runWatched_ending_eq_watchNeedsInput_iff parsed changes

theorem accepted_has_work_beside_empty_input :
    let words := ["-l".toList, "7".toList, "--watch".toList, []]
    let job : Job := ⟨none, none, [some "7".toList], ⟨.w8, .lenient, true⟩, true, false⟩
    job.HasWork { input := some [], literals := [some "7".toList], watch := true } ∧
      (runWatched words {} (.ok []) []).ending = .failed .watchNeedsInput := by
  intro words job
  let arguments : Arguments := { input := some [], literals := [some "7".toList], watch := true }
  let config : Toml.Table := [("literals".toList, .table [("width".toList, .integer 8)])]
  have parsed : Arguments.ofTexts words = .ok arguments := by decide +kernel
  have accepted : arguments.refusal? = none := by decide
  have resolved : arguments.job config = .ok job := by decide +kernel
  have started : ∃ job, arguments.toJob {} = .ok job :=
    ⟨⟨none, none, [some "7".toList], {}, true, false⟩, by decide +kernel⟩
  rcases accepted_has_work_unless_input_is_empty parsed with ⟨work, failing⟩
  constructor
  · apply (work config job accepted resolved).1.mpr
    rintro ⟨-, none⟩
    contradiction
  · exact (failing {} (.ok []) []).mpr ⟨rfl, rfl, started⟩

theorem empty_input_leaves_nothing_to_do :
    Arguments.ofTexts [[]] = .ok { input := some [] } ∧
      Arguments.toJob { input := some [] } {} = .ok ⟨none, none, [], {}, false, false⟩ ∧
      ¬ Job.HasWork ⟨none, none, [], {}, false, false⟩ { input := some [] } ∧
      (runWatched ["--watch".toList, []] {} (.ok []) []).ending = .failed .watchNeedsInput := by
  refine ⟨by decide +kernel, by decide +kernel, ?_, by decide +kernel⟩
  rintro (stream | file | given)
  · contradiction
  · exact file rfl
  · exact given rfl

end ScriptLiterals.Command
