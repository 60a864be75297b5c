import ScriptLiterals.Proofs.File.Refused

/-!
What a file holds after it was written, and that its path still leads to it.

Main statements: `write_eq_ok_iff`, `isUpdate_fill` and `write_eq_error`.
-/

namespace ScriptLiterals.FileTree

variable {tree other written : FileTree} {path : Path} {place : FilePlace} {bytes : List UInt8}

def IsWritable (tree : FileTree) (path : Path) (bytes : List UInt8) : Prop :=
  ∃ place, tree.openToWrite path = .ok place ∧
    ∀ count e, (tree.writeAccess place).writeBreak = some (count, e) → bytes.length ≤ count

theorem write_of_openToWrite (opened : tree.openToWrite path = .ok place)
    (room : ∀ count e, (tree.writeAccess place).writeBreak = some (count, e) →
      bytes.length ≤ count) :
    tree.write path bytes = .ok (tree.fill place bytes) := by
  have whole : (tree.writeAccess place).writeBreak.filter (·.1 < bytes.length) = none := by
    rw [Option.filter_eq_none_iff]
    rintro ⟨count, e⟩ limit
    simpa using room count e limit
  simp only [write, opened, whole]

theorem write_eq_ok_iff :
    tree.write path bytes = .ok written ↔ ∃ place, tree.openToWrite path = .ok place ∧
      (∀ count e, (tree.writeAccess place).writeBreak = some (count, e) → bytes.length ≤ count) ∧
      written = tree.fill place bytes := by
  constructor
  · intro wrote
    unfold write at wrote
    cases opened : tree.openToWrite path with
    | error e => simp [opened] at wrote
    | ok place =>
      simp only [opened] at wrote
      split at wrote
      · contradiction
      · next whole =>
        refine ⟨place, rfl, ?_, (Except.ok.inj wrote).symm⟩
        intro count e limit
        simpa [limit, Option.filter] using whole
  · rintro ⟨place, opened, room, rfl⟩
    exact write_of_openToWrite opened room

theorem isWritable_iff : tree.IsWritable path bytes ↔ ∃ written, tree.write path bytes = .ok written := by
  simp only [write_eq_ok_iff]
  constructor
  · rintro ⟨place, opened, room⟩
    exact ⟨_, place, opened, room, rfl⟩
  · rintro ⟨-, place, opened, room, -⟩
    exact ⟨place, opened, room⟩

theorem step_eq_ok_iff (tree : FileTree) (place next : FilePlace) (name : Text) :
    tree.step place name = .ok next ↔
      tree.node? place = some .directory ∧ (tree.access place).search = none ∧
        Text.utf8Size name ≤ Path.maxNameSize ∧
        (if name = ['.', '.'] then place.up else place.down name) = next := by
  unfold step
  rcases node : tree.node? place with _ | ⟨bytes⟩ | _
  · simp
  · simp
  · cases search : (tree.access place).search with
    | some e => simp
    | none =>
      by_cases long : Path.maxNameSize < Text.utf8Size name
      · simp [long, Nat.not_le_of_gt long]
      · simp [long, Nat.le_of_not_lt long]

theorem resolve_of_directories
    (stay : ∀ place, tree.node? place = some .directory → other.node? place = some .directory)
    (search : ∀ place, other.access place = tree.access place)
    (resolved : tree.resolve path = .ok place) : other.resolve path = .ok place := by
  have follow : ∀ (names : List Text) (first : FilePlace),
      names.foldlM tree.step first = .ok place → names.foldlM other.step first = .ok place := by
    intro names
    -- each name is followed from a directory, which is still one and can still be searched
    induction names with
    | nil => exact fun first followed => followed
    | cons name names ih =>
      intro first followed
      rw [List.foldlM_cons] at followed ⊢
      cases step : tree.step first name with
      | error fault => simp [step, bind, Except.bind] at followed
      | ok next =>
        rw [step] at followed
        obtain ⟨directory, open', short, leads⟩ := (step_eq_ok_iff ..).mp step
        rw [← search first] at open'
        rw [(step_eq_ok_iff ..).mpr ⟨stay first directory, open', short, leads⟩]
        exact ih next followed
  unfold resolve at resolved ⊢
  split at resolved
  · contradiction
  · next regular =>
    split at resolved
    · contradiction
    · next short =>
      rw [if_neg regular, if_neg short]
      exact follow _ _ resolved

theorem resolve_fill (resolved : tree.resolve path = .ok place)
    (file : tree.node? place ≠ some .directory) (bytes : List UInt8) :
    (tree.fill place bytes).resolve path = .ok place := by
  refine resolve_of_directories ?_ (tree.access_fill place · bytes) resolved
  intro other directory
  have elsewhere : place ≠ other := by
    rintro rfl
    exact file directory
  rw [tree.node?_fill place other bytes file, if_neg elsewhere, directory]

/-- A tree with these bytes at the end of a path and everything else as in another. Reading the path
gives the bytes unless that is refused. -/
structure IsUpdate (left tree : FileTree) (path : Path) (place : FilePlace) (bytes : List UInt8) :
    Prop where
  resolve_before : tree.resolve path = .ok place
  resolve_after : left.resolve path = .ok place
  node?_eq : left.node? place = some (.file bytes)
  read_eq : (left.access place).read = none → (left.access place).readBreak = none →
    left.read path = .ok bytes
  others : ∀ other ≠ place, left.node? other = tree.node? other
  access_eq : ∀ other, left.access other = tree.access other

theorem isUpdate_fill (opened : tree.openToWrite path = .ok place) (bytes : List UInt8) :
    (tree.fill place bytes).IsUpdate tree path place bytes := by
  obtain ⟨resolved, file⟩ := resolve_of_openToWrite opened
  have leads := resolve_fill resolved file bytes
  have node : (tree.fill place bytes).node? place = some (.file bytes) := by
    rw [tree.node?_fill place place bytes file, if_pos rfl]
  refine ⟨resolved, leads, node, ?_, ?_, (tree.access_fill place · bytes)⟩
  · intro opens whole
    rw [read_of_resolve leads, bytesAt, node, opens, whole]
    rfl
  · intro other elsewhere
    rw [tree.node?_fill place other bytes file, if_neg elsewhere.symm]

/-- Writing that fails has changed nothing, or has left a part of the bytes. -/
theorem write_eq_error {left : FileTree} {e : FileError}
    (failed : tree.write path bytes = .error (e, left)) :
    left = tree ∨ ∃ place count, left.IsUpdate tree path place (bytes.take count) := by
  unfold write at failed
  cases opened : tree.openToWrite path with
  | error e =>
    left
    simp only [opened, Except.error.injEq, Prod.mk.injEq] at failed
    exact failed.2.symm
  | ok place =>
    right
    simp only [opened] at failed
    split at failed
    · next count e _ =>
      cases failed
      exact ⟨place, count, isUpdate_fill opened _⟩
    · contradiction

end ScriptLiterals.FileTree
