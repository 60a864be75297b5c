import ScriptLiterals.Proofs.Command.Ending

/-!
The polls of a watched run. Of the times that it has seen, a run remembers the latest, and at each
poll it checks the input if it is there with another time. Before the first sight it remembers time
zero, so that a file of that time goes unnoticed until it changes.

Main statements: one poll (`poll_checks_iff`), the polls of a run (`visits_polled`), and
`checks_at_first_sight_and_on_change`.
-/

namespace ScriptLiterals.Command

/-- A poll of a run: the files that it found, and what became of them. -/
structure Visit where
  found : FileTree
  polled : Polled
  deriving DecidableEq, Repr

namespace Visit

def time? (visit : Visit) (path : Path) : Option Int := (visit.found.modified path).toOption

def Checks (visit : Visit) (job : Job) (path : Path) : Prop :=
  ∃ time, visit.time? path = some time ∧ visit.polled = job.check path time visit.found

theorem time?_eq_some_iff {visit : Visit} {path : Path} {time : Int} :
    visit.time? path = some time ↔ visit.found.modified path = .ok time := by
  unfold time?
  cases visit.found.modified path <;> simp [Except.toOption]

def entry (visit : Visit) (printed : Text) : LogEntry :=
  ⟨visit.polled.log.output, printed ++ visit.polled.log.errorOutput⟩

def times (path : Path) (visits : List Visit) : List Int := visits.filterMap (·.time? path)

def remembered (path : Path) (lastSeen : Int) (visits : List Visit) : Int :=
  (times path visits).getLast?.getD lastSeen

theorem remembered_cons (path : Path) (lastSeen : Int) (visit : Visit) (visits : List Visit) :
    remembered path lastSeen (visit :: visits) =
      remembered path ((visit.time? path).getD lastSeen) visits := by
  unfold remembered times
  cases seen : visit.time? path with
  | none => simp [seen]
  | some time => simp [seen, List.getLast?_cons]

theorem ne_remembered_iff (path : Path) (lastSeen time : Int) (visits : List Visit) :
    time ≠ remembered path lastSeen visits ↔
      (times path visits = [] ∧ time ≠ lastSeen) ∨
        ∃ latest, (times path visits).getLast? = some latest ∧ time ≠ latest := by
  unfold remembered
  cases seen : (times path visits).getLast? with
  | none => simp [List.getLast?_eq_none_iff.mp seen]
  | some latest =>
    have nonempty : times path visits ≠ [] := by
      intro empty
      simp [empty] at seen
    simp [nonempty]

end Visit

variable {job : Job} {path : Path} {lastSeen : Int} {tree : FileTree}
  {changes : List (FileTree → FileTree)} {earlier later : List Visit} {visit first : Visit}

theorem Failure.line_ne_nil (failure : Failure) : failure.line ≠ [] := by
  unfold line
  exact List.append_ne_nil_of_right_ne_nil _ (List.cons_ne_nil _ _)

theorem Job.checkedLine_ne_nil (path : Path) : checkedLine path ≠ [] := by
  unfold checkedLine
  exact List.append_ne_nil_of_right_ne_nil _ (List.cons_ne_nil _ _)

namespace Job

theorem check_of_done {status : Status} (time : Int)
    (done : (job.run tree none).result = .ok status) :
    job.check path time tree =
      ⟨time, (job.run tree none).tree, ⟨(job.run tree none).output, (job.run tree none).errorOutput ++
        if status = .undone then [] else checkedLine path⟩, none⟩ := by
  unfold check
  cases status <;> simp [done]

theorem check_of_failed {failure : Failure} (time : Int)
    (failed : (job.run tree none).result = .error failure) :
    job.check path time tree =
      ⟨time, (job.run tree none).tree, ⟨(job.run tree none).output, (job.run tree none).errorOutput ++
        if failure.isReported then failure.line else []⟩,
        if failure.isReported then none else some failure⟩ := by
  unfold check
  simp only [failed]
  split_ifs
  · rfl
  · rfl

theorem check_lastSeen (job : Job) (path : Path) (time : Int) (tree : FileTree) :
    (job.check path time tree).lastSeen = time := by
  cases result : (job.run tree none).result with
  | ok status => rw [check_of_done time result]
  | error failure => rw [check_of_failed time result]

theorem errorOutput_of_undone (undone : (job.run tree none).result = .ok .undone) :
    ∃ failure : Failure, (job.run tree none).errorOutput = failure.line := by
  cases read : job.script tree none with
  | error failure =>
    cases reported : failure.isReported with
    | true => exact ⟨failure, by simp [run, read, reported]⟩
    | false => simp [run, read, reported] at undone
  | ok script =>
    cases delivers : job.deliver tree (job.report script).text with
    | error e => simp [run, read, delivers] at undone
    | ok delivered =>
      simp only [run, read, delivers, Except.ok.injEq] at undone
      split_ifs at undone

theorem check_log_ne (time : Int) (lives : (job.check path time tree).failure = none) :
    (job.check path time tree).log ≠ ⟨[], []⟩ := by
  intro silent
  cases result : (job.run tree none).result with
  | ok status =>
    rw [check_of_done time result, LogEntry.mk.injEq, List.append_eq_nil_iff] at silent
    by_cases undone : status = .undone
    · subst undone
      rcases errorOutput_of_undone result with ⟨failure, reason⟩
      exact failure.line_ne_nil (reason.symm.trans silent.2.1)
    · rw [if_neg undone] at silent
      exact checkedLine_ne_nil path silent.2.2
  | error failure =>
    rw [check_of_failed time result] at lives silent
    by_cases reported : failure.isReported = true
    · rw [if_pos reported, LogEntry.mk.injEq, List.append_eq_nil_iff] at silent
      exact failure.line_ne_nil silent.2.2
    · simp [reported] at lives

theorem poll_of_absent {e : FileError} (absent : tree.modified path = .error e) :
    job.poll path lastSeen tree =
      ⟨lastSeen, tree, ⟨[], []⟩, if e.isFromFileSystem then none else some (.file e)⟩ := by
  simp only [poll, absent]

theorem poll_of_unchanged (same : tree.modified path = .ok lastSeen) :
    job.poll path lastSeen tree = ⟨lastSeen, tree, ⟨[], []⟩, none⟩ := by
  simp only [poll, same, if_true]

theorem poll_of_changed {time : Int} (present : tree.modified path = .ok time)
    (changed : time ≠ lastSeen) : job.poll path lastSeen tree = job.check path time tree := by
  simp only [poll, present, if_neg changed]

theorem poll_lastSeen (job : Job) (path : Path) (lastSeen : Int) (tree : FileTree) :
    (job.poll path lastSeen tree).lastSeen = (tree.modified path).toOption.getD lastSeen := by
  cases seen : tree.modified path with
  | error e =>
    rw [poll_of_absent seen]
    rfl
  | ok time =>
    by_cases same : time = lastSeen
    · rw [same] at seen ⊢
      rw [poll_of_unchanged seen]
      rfl
    · rw [poll_of_changed seen same, check_lastSeen]
      rfl

theorem poll_checks_iff (job : Job) (path : Path) (lastSeen : Int) (tree : FileTree) :
    Visit.Checks ⟨tree, job.poll path lastSeen tree⟩ job path ↔
      ∃ time, tree.modified path = .ok time ∧ time ≠ lastSeen := by
  constructor
  · rintro ⟨time, present, checked⟩
    have seen : tree.modified path = .ok time := Visit.time?_eq_some_iff.mp present
    refine ⟨time, seen, ?_⟩
    intro same
    -- a poll that sees the time from before is silent and goes on, which no check does
    subst same
    have idle : job.check path time tree = ⟨time, tree, ⟨[], []⟩, none⟩ :=
      checked.symm.trans (poll_of_unchanged seen)
    have lives : (job.check path time tree).failure = none := by rw [idle]
    have silent : (job.check path time tree).log = ⟨[], []⟩ := by rw [idle]
    exact check_log_ne time lives silent
  · rintro ⟨time, present, changed⟩
    exact ⟨time, Visit.time?_eq_some_iff.mpr present, poll_of_changed present changed⟩

theorem poll_of_not_checks
    (rests : ¬ Visit.Checks ⟨tree, job.poll path lastSeen tree⟩ job path) :
    (job.poll path lastSeen tree).log = ⟨[], []⟩ ∧ (job.poll path lastSeen tree).tree = tree := by
  rw [poll_checks_iff] at rests
  cases seen : tree.modified path with
  | error e =>
    rw [poll_of_absent seen]
    exact ⟨rfl, rfl⟩
  | ok time =>
    by_cases same : time = lastSeen
    · rw [same] at seen
      rw [poll_of_unchanged seen]
      exact ⟨rfl, rfl⟩
    · exact absurd ⟨time, seen, same⟩ rests

end Job

namespace Watched

/-- The polls of a run, with the files that each one found. -/
def visits (job : Job) (path : Path) :
    Int → FileTree → List (FileTree → FileTree) → List Visit
  | lastSeen, tree, [] => [⟨tree, job.poll path lastSeen tree⟩]
  | lastSeen, tree, change :: changes =>
    let polled := job.poll path lastSeen tree
    ⟨tree, polled⟩ ::
      if polled.failure = none then visits job path polled.lastSeen (change polled.tree) changes
      else []

theorem visits_ne_nil (job : Job) (path : Path) (lastSeen : Int) (tree : FileTree)
    (changes : List (FileTree → FileTree)) : visits job path lastSeen tree changes ≠ [] := by
  cases changes with
  | nil => exact List.cons_ne_nil _ _
  | cons change more => exact List.cons_ne_nil _ _

theorem visits_head (run : visits job path lastSeen tree changes = visit :: later) :
    visit = ⟨tree, job.poll path lastSeen tree⟩ := by
  cases changes with
  | nil => exact (List.cons.inj run).1.symm
  | cons change more => exact (List.cons.inj run).1.symm

theorem visits_tail
    (run : visits job path lastSeen tree changes = first :: (earlier ++ visit :: later)) :
    first.polled.failure = none ∧ ∃ change more, changes = change :: more ∧
      visits job path first.polled.lastSeen (change first.polled.tree) more =
        earlier ++ visit :: later := by
  cases changes with
  | nil => simp [visits] at run
  | cons change more =>
    rw [visits_head run]
    rcases List.cons.inj run with ⟨-, others⟩
    by_cases lives : (job.poll path lastSeen tree).failure = none
    · rw [if_pos lives] at others
      exact ⟨lives, change, more, rfl, others⟩
    · simp [lives] at others

/-- Each poll looks with the time in mind that was seen latest. -/
theorem visits_polled (run : visits job path lastSeen tree changes = earlier ++ visit :: later) :
    visit.polled = job.poll path (Visit.remembered path lastSeen earlier) visit.found := by
  -- induction on the polls before; the time in mind is the one that the first of them leaves
  induction earlier generalizing lastSeen tree changes with
  | nil =>
    rw [visits_head run]
    rfl
  | cons first earlier ih =>
    rcases visits_tail run with ⟨-, change, more, -, others⟩
    have seen : first.polled.lastSeen = (first.time? path).getD lastSeen := by
      rw [visits_head run]
      exact job.poll_lastSeen path lastSeen tree
    rw [ih others, seen, Visit.remembered_cons]

theorem polls_nil (printed : Text) (lives : (job.poll path lastSeen tree).failure = none) :
    polls job path printed lastSeen tree [] = ⟨.finished .converted,
      [Visit.entry ⟨tree, job.poll path lastSeen tree⟩ printed],
      (job.poll path lastSeen tree).tree⟩ := by
  simp only [polls, lives]
  rfl

theorem polls_cons (printed : Text) (change : FileTree → FileTree)
    (lives : (job.poll path lastSeen tree).failure = none) :
    polls job path printed lastSeen tree (change :: changes) =
      let polled := job.poll path lastSeen tree
      let watched := polls job path [] polled.lastSeen (change polled.tree) changes
      { watched with log := Visit.entry ⟨tree, polled⟩ printed :: watched.log } := by
  simp only [polls, lives]
  rfl

theorem polls_log (printed : Text)
    (run : visits job path lastSeen tree changes = earlier ++ visit :: later)
    (lives : visit.polled.failure = none) :
    (polls job path printed lastSeen tree changes).log[earlier.length]? =
      some (visit.entry (if earlier = [] then printed else [])) := by
  induction earlier generalizing printed lastSeen tree changes with
  | nil =>
    rw [visits_head run] at lives ⊢
    cases changes with
    | nil =>
      rw [polls_nil printed lives]
      rfl
    | cons change more =>
      rw [polls_cons printed change lives]
      rfl
  | cons first earlier ih =>
    rcases visits_tail run with ⟨lives', change, more, rfl, others⟩
    rw [visits_head run] at lives' others
    rw [polls_cons printed change lives', List.length_cons, List.getElem?_cons_succ,
      if_neg (List.cons_ne_nil _ _)]
    have next := ih [] others
    rwa [ite_self] at next

theorem polls_tree (printed : Text)
    (run : visits job path lastSeen tree changes = earlier ++ [visit]) :
    (polls job path printed lastSeen tree changes).tree = visit.polled.tree := by
  induction earlier generalizing printed lastSeen tree changes with
  | nil =>
    rw [visits_head run]
    cases ends : (job.poll path lastSeen tree).failure with
    | some failure =>
      unfold polls
      simp only [ends]
    | none =>
      cases changes with
      | nil => rw [polls_nil printed ends]
      | cons change more =>
        rcases List.cons.inj run with ⟨-, others⟩
        rw [if_pos ends] at others
        exact absurd others (visits_ne_nil _ _ _ _ _)
  | cons first earlier ih =>
    rcases visits_tail run with ⟨lives', change, more, rfl, others⟩
    rw [visits_head run] at lives' others
    rw [polls_cons printed change lives']
    exact ih [] others

section Regular

variable (input : job.input = some path) (regular : path.hasNul = false)
  (regularOutput : ∀ output ∈ job.output, output.hasNul = false)

include input regular regularOutput in
theorem visits_failure (visited : visit ∈ visits job path lastSeen tree changes) :
    visit.polled.failure = none := by
  rcases List.append_of_mem visited with ⟨earlier, later, run⟩
  rw [visits_polled run]
  exact Job.poll_failure input regular regularOutput _ _

include input regular regularOutput in
theorem length_visits (lastSeen : Int) (tree : FileTree) (changes : List (FileTree → FileTree)) :
    (visits job path lastSeen tree changes).length = changes.length + 1 := by
  induction changes generalizing lastSeen tree with
  | nil => rfl
  | cons change more ih =>
    have lives := Job.poll_failure input regular regularOutput lastSeen tree
    rw [visits, if_pos lives, List.length_cons, ih, List.length_cons]

end Regular

/-- A watched run checks its input at a poll exactly if it is there and was never seen before, or
with another time when it was seen latest; a file of time zero is not taken for new. Otherwise the
poll does nothing. Unless a path has a NUL, no poll ends the run. -/
theorem checks_at_first_sight_and_on_change (input : job.input = some path) (tree : FileTree)
    (changes : List (FileTree → FileTree)) :
    let run := visits job path 0 tree changes
    let watched := ofJob job tree changes
    (∀ earlier visit later, run = earlier ++ visit :: later →
      (visit.Checks job path ↔ ∃ time, visit.time? path = some time ∧
        ((Visit.times path earlier = [] ∧ time ≠ 0) ∨
          ∃ latest, (Visit.times path earlier).getLast? = some latest ∧ time ≠ latest)) ∧
      (¬ visit.Checks job path →
        visit.polled.log = ⟨[], []⟩ ∧ visit.polled.tree = visit.found) ∧
      (visit.polled.failure = none → watched.log[earlier.length]? =
        some (visit.entry (if earlier = [] then watchingLine path else [])))) ∧
    (path.hasNul = false → (∀ output ∈ job.output, output.hasNul = false) →
      run.length = changes.length + 1 ∧ (∀ visit ∈ run, visit.polled.failure = none) ∧
        watched.ending = .finished .converted) := by
  intro run watched
  have loop : watched = polls job path (watchingLine path) 0 tree changes := by
    simp only [watched, ofJob, input]
  constructor
  · intro earlier visit later split
    have polled : visit = ⟨visit.found,
        job.poll path (Visit.remembered path 0 earlier) visit.found⟩ := by
      rw [← visits_polled split]
    refine ⟨?_, ?_, ?_⟩
    · rw [polled, Job.poll_checks_iff]
      simp only [Visit.ne_remembered_iff, Visit.time?_eq_some_iff]
    · intro rests
      rw [polled] at rests ⊢
      exact Job.poll_of_not_checks rests
    · intro lives
      rw [loop]
      exact polls_log _ split lives
  · intro regular regularOutput
    refine ⟨length_visits input regular regularOutput 0 tree changes, ?_, ?_⟩
    · intro visit visited
      exact visits_failure input regular regularOutput visited
    · rw [loop]
      rcases polls_ending input regular (watchingLine path) 0 tree changes with
        interrupted | ⟨output, given, nul, -⟩
      · exact interrupted
      · rw [regularOutput output given] at nul
        contradiction

theorem checks_file_changed_to_time_zero :
    let path : Path := ⟨.relative, ["s".toList]⟩
    let job : Job := ⟨some path, none, [], {}, true, false⟩
    let fileOf (time : Int) : FileTree := ⟨[⟨⟨.above 0, ["s".toList]⟩, .file [0x31], time, {}⟩], 9⟩
    ∃ earlier visit,
      visits job path 0 (fileOf 5) [fun _ => {}, fun _ => fileOf 5, fun _ => fileOf 0] =
        earlier ++ [visit] ∧
      Visit.times path earlier = [5, 5] ∧ visit.time? path = some 0 ∧ visit.Checks job path := by
  intro path job fileOf
  let run := visits job path 0 (fileOf 5) [fun _ => {}, fun _ => fileOf 5, fun _ => fileOf 0]
  let last := run.getLast (visits_ne_nil job path 0 _ _)
  have split : run = run.dropLast ++ [last] := (List.dropLast_concat_getLast _).symm
  have times : Visit.times path run.dropLast = [5, 5] := by decide +kernel
  have time : last.time? path = some 0 := by decide +kernel
  have input : job.input = some path := rfl
  rcases checks_at_first_sight_and_on_change input (fileOf 5)
    [fun _ => {}, fun _ => fileOf 5, fun _ => fileOf 0] with ⟨checks, -⟩
  refine ⟨run.dropLast, last, split, times, time, ?_⟩
  apply (checks _ _ _ split).1.mpr
  refine ⟨0, time, .inr ⟨5, ?_, by decide⟩⟩
  rw [times]
  rfl

theorem skips_first_sight_of_time_zero :
    FileTree.modified ⟨[⟨⟨.above 0, ["s".toList]⟩, .file [0x31], 0, {}⟩], 1⟩ ⟨.relative, ["s".toList]⟩ =
        .ok 0 ∧
      (runWatched ["--watch".toList, "s".toList]
        ⟨[⟨⟨.above 0, ["s".toList]⟩, .file [0x31], 0, {}⟩], 1⟩ (.ok []) []).log =
        [⟨[], watchingLine ⟨.relative, ["s".toList]⟩⟩] := by
  decide +kernel

end Watched
end ScriptLiterals.Command
