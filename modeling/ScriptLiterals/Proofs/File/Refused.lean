import ScriptLiterals.File.Tree

/-!
Which paths are refused before the file system is asked: those with a NUL, and no others.

Main statements: `isFromFileSystem_of_find`, `isFromFileSystem_of_read` and
`isFromFileSystem_of_write`.
-/

namespace ScriptLiterals.FileTree

variable {tree left : FileTree} {path : Path} {place : FilePlace} {fault : FileFault} {e : FileError}
  {bytes : List UInt8}

theorem step_ne_nulInPath (place : FilePlace) (name : Text) :
    tree.step place name ≠ .error .nulInPath := by
  unfold step
  split
  · simp
  · simp
  · split
    · simp
    · split <;> simp

theorem foldlM_step_ne_nulInPath (names : List Text) (place : FilePlace) :
    names.foldlM tree.step place ≠ .error .nulInPath := by
  induction names generalizing place with
  | nil => simp [pure, Except.pure]
  | cons name names ih =>
    rw [List.foldlM_cons]
    cases step : tree.step place name with
    | error fault =>
      have other := tree.step_ne_nulInPath place name
      rw [step] at other
      exact other
    | ok next => exact ih next

theorem resolve_eq_nulInPath_iff (tree : FileTree) (path : Path) :
    tree.resolve path = .error .nulInPath ↔ path.hasNul = true := by
  unfold resolve
  by_cases nul : path.hasNul = true
  · simp [nul]
  · simp only [nul, Bool.false_eq_true, if_false, iff_false]
    split
    · simp
    · exact foldlM_step_ne_nulInPath _ _

theorem isFromFileSystem_of_resolve (failed : tree.resolve path = .error fault) :
    FileError.isFromFileSystem ⟨fault, path⟩ = !path.hasNul := by
  have nul := tree.resolve_eq_nulInPath_iff path
  rw [failed, Except.error.injEq] at nul
  cases known : path.hasNul <;> simp [FileError.isFromFileSystem, nul, known]

theorem hasNul_of_resolve (resolved : tree.resolve path = .ok place) : path.hasNul = false := by
  have nul := tree.resolve_eq_nulInPath_iff path
  rw [resolved] at nul
  simpa using nul

theorem find_of_resolve_error (failed : tree.resolve path = .error fault) :
    tree.find path = .error ⟨fault, path⟩ := by
  simp only [find, failed]

theorem modified_of_resolve_error (failed : tree.resolve path = .error fault) :
    tree.modified path = .error ⟨fault, path⟩ := by
  rw [modified, find_of_resolve_error failed]
  rfl

/-- What fails where a path does not resolve, and otherwise not for a NUL, fails for a NUL exactly
where the path has one. -/
theorem isFromFileSystem_of_error {α : Type} {used : Except FileError α}
    (early : ∀ fault, tree.resolve path = .error fault → used = .error ⟨fault, path⟩)
    (late : ∀ place, tree.resolve path = .ok place → used = .error e → e.fault ≠ .nulInPath)
    (failed : used = .error e) : e.isFromFileSystem = !path.hasNul := by
  cases resolved : tree.resolve path with
  | error fault =>
    obtain rfl := Except.error.inj ((early fault resolved).symm.trans failed)
    exact isFromFileSystem_of_resolve resolved
  | ok place =>
    rw [hasNul_of_resolve resolved]
    simpa [FileError.isFromFileSystem] using late place resolved failed

theorem isFromFileSystem_of_find (failed : tree.find path = .error e) :
    e.isFromFileSystem = !path.hasNul := by
  refine isFromFileSystem_of_error (fun _ => find_of_resolve_error) ?_ failed
  intro place resolved failed
  simp only [find, resolved] at failed
  split at failed <;> cases failed <;> simp

theorem isFromFileSystem_of_modified (failed : tree.modified path = .error e) :
    e.isFromFileSystem = !path.hasNul := by
  unfold modified at failed
  cases found : tree.find path with
  | error other =>
    obtain rfl : other = e := by simpa [found, Except.map] using failed
    exact isFromFileSystem_of_find found
  | ok place => simp [found, Except.map] at failed

theorem bytesAt_ne_nulInPath (place : FilePlace) : tree.bytesAt place ≠ .error .nulInPath := by
  unfold bytesAt
  split
  · simp
  · split <;> simp

theorem read_of_resolve_error (failed : tree.resolve path = .error fault) :
    tree.read path = .error ⟨fault, path⟩ := by
  rw [read, failed]
  rfl

theorem read_of_resolve (resolved : tree.resolve path = .ok place) :
    tree.read path = (tree.bytesAt place).mapError (⟨·, path⟩) := by
  rw [read, resolved]
  rfl

theorem isFromFileSystem_of_read (failed : tree.read path = .error e) :
    e.isFromFileSystem = !path.hasNul := by
  refine isFromFileSystem_of_error (fun _ => read_of_resolve_error) ?_ failed
  intro place resolved failed
  rw [read_of_resolve resolved] at failed
  have other := tree.bytesAt_ne_nulInPath place
  cases contents : tree.bytesAt place with
  | error fault =>
    rw [contents] at failed other
    cases failed
    simpa using other
  | ok bytes =>
    rw [contents] at failed
    contradiction

theorem openToWrite_of_resolve_error (failed : tree.resolve path = .error fault) :
    tree.openToWrite path = .error ⟨fault, path⟩ := by
  simp only [openToWrite, failed]

theorem write_of_resolve_error (failed : tree.resolve path = .error fault) (bytes : List UInt8) :
    tree.write path bytes = .error (⟨fault, path⟩, tree) := by
  simp only [write, openToWrite_of_resolve_error failed]

theorem isFromFileSystem_of_openToWrite (failed : tree.openToWrite path = .error e) :
    e.isFromFileSystem = !path.hasNul := by
  refine isFromFileSystem_of_error (fun _ => openToWrite_of_resolve_error) ?_ failed
  intro place resolved failed
  simp only [openToWrite, resolved] at failed
  split at failed
  · cases failed
    simp
  · split at failed <;> cases failed
    simp

theorem resolve_of_openToWrite (opened : tree.openToWrite path = .ok place) :
    tree.resolve path = .ok place ∧ tree.node? place ≠ some .directory := by
  unfold openToWrite at opened
  cases resolved : tree.resolve path with
  | error fault => simp [resolved] at opened
  | ok other =>
    simp only [resolved] at opened
    split at opened
    · contradiction
    · next file =>
      split at opened
      · contradiction
      · cases opened
        exact ⟨rfl, file⟩

theorem isFromFileSystem_of_write (failed : tree.write path bytes = .error (e, left)) :
    e.isFromFileSystem = !path.hasNul := by
  unfold write at failed
  cases opened : tree.openToWrite path with
  | error other =>
    simp only [opened] at failed
    cases failed
    exact isFromFileSystem_of_openToWrite opened
  | ok place =>
    rw [hasNul_of_resolve (resolve_of_openToWrite opened).1]
    simp only [opened] at failed
    split at failed
    · cases failed
      rfl
    · contradiction

end ScriptLiterals.FileTree
