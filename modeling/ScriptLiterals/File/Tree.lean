import ScriptLiterals.File.Path
import ScriptLiterals.Text.Quoted

/-!
A tree of files and directories around a working directory, with the times at which they changed and
with what the system refuses of them. A file changes when it is written, a directory when a name in
it comes or goes.

Main statements: filling a file changes what stands at its place and nothing else (`node?_fill`,
`access_fill`).
-/

namespace ScriptLiterals

/-- Where a path leads once its double dots are resolved: from the root, or from so many levels
above the working directory, down along some names. -/
inductive Anchor
  | root
  | above (levels : Nat)
  deriving DecidableEq, Repr

structure FilePlace where
  anchor : Anchor
  names : List Text
  deriving DecidableEq, Repr

namespace FilePlace

def workingDirectory : FilePlace := ⟨.above 0, []⟩

def up (place : FilePlace) : FilePlace :=
  match place.names, place.anchor with
  | _ :: _, _ => { place with names := place.names.dropLast }
  | [], .above levels => ⟨.above (levels + 1), []⟩
  | [], .root => place

def down (place : FilePlace) (name : Text) : FilePlace :=
  { place with names := place.names ++ [name] }

end FilePlace

inductive FileNode
  | file (bytes : List UInt8)
  | directory
  deriving DecidableEq, Repr

structure SystemError where
  number : Nat
  text : Text
  oneLine : '\n' ∉ text := by decide
  deriving DecidableEq, Repr

def SystemError.message (e : SystemError) : Text :=
  "[Errno ".toList ++ Text.ofNat e.number ++ "] ".toList ++ e.text

inductive FileFault
  | notFound
  | notDirectory
  | isDirectory
  | nameTooLong
  | nulInPath
  | refused (error : SystemError)
  | brokenOff (error : SystemError)
  deriving DecidableEq, Repr

namespace FileFault

def number? : FileFault → Option Nat
  | notFound => some 2
  | notDirectory => some 20
  | isDirectory => some 21
  | nameTooLong => some 36
  | nulInPath => none
  | refused e => some e.number
  | brokenOff e => some e.number

/-- Whether a question for a file is answered with no instead of failing. Besides a missing name,
these are a bad descriptor and a loop of links. -/
def meansNoFile (fault : FileFault) : Bool :=
  match fault.number? with
  | none => true
  | some number => [2, 9, 20, 40].contains number

end FileFault

structure FileError where
  fault : FileFault
  path : Path
  deriving DecidableEq, Repr

namespace FileError

def message (e : FileError) : Text :=
  match e.fault with
  | .notFound => "[Errno 2] No such file or directory: ".toList ++ Text.quoted e.path.text
  | .notDirectory => "[Errno 20] Not a directory: ".toList ++ Text.quoted e.path.text
  | .isDirectory => "[Errno 21] Is a directory: ".toList ++ Text.quoted e.path.text
  | .nameTooLong => "[Errno 36] File name too long: ".toList ++ Text.quoted e.path.text
  | .nulInPath => "embedded null byte".toList
  | .refused error => error.message ++ ": ".toList ++ Text.quoted e.path.text
  | .brokenOff error => error.message

def isFromFileSystem (e : FileError) : Bool := e.fault ≠ .nulInPath

end FileError

/-- What the system refuses: to look a name up in a directory, to say what stands at a place, and to
open a file or, for a directory, to make a name in it. Also behind an open file reading may break
off, and writing behind some number of bytes. -/
structure Access where
  search : Option SystemError := none
  inspect : Option SystemError := none
  read : Option SystemError := none
  write : Option SystemError := none
  readBreak : Option SystemError := none
  writeBreak : Option (Nat × SystemError) := none
  deriving DecidableEq, Repr

/-- What stands at a place. The time is the one that is seen of it: the nearest float to its seconds,
in nanoseconds. -/
structure FileEntry where
  place : FilePlace
  node : FileNode
  modified : Int
  access : Access := {}
  deriving DecidableEq, Repr

/-- The known places, and the time that the next change will have. Directories without a name of
their own always exist, whether or not they have an entry. -/
structure FileTree where
  entries : List FileEntry := []
  clock : Int := 0
  deriving DecidableEq, Repr

namespace FileTree

def entryAt? (tree : FileTree) (place : FilePlace) : Option FileEntry :=
  tree.entries.find? (·.place = place)

def node? (tree : FileTree) (place : FilePlace) : Option FileNode :=
  if place.names = [] then some .directory else (tree.entryAt? place).map (·.node)

def access (tree : FileTree) (place : FilePlace) : Access :=
  ((tree.entryAt? place).map (·.access)).getD {}

def step (tree : FileTree) (place : FilePlace) (name : Text) : Except FileFault FilePlace :=
  match tree.node? place with
  | none => .error .notFound
  | some (.file _) => .error .notDirectory
  | some .directory =>
    match (tree.access place).search with
    | some e => .error (.refused e)
    | none =>
      if Path.maxNameSize < Text.utf8Size name then .error .nameTooLong
      else .ok (if name = ['.', '.'] then place.up else place.down name)

def resolve (tree : FileTree) (path : Path) : Except FileFault FilePlace :=
  if path.hasNul then .error .nulInPath
  else if Path.maxSize < Text.utf8Size path.text then .error .nameTooLong
  else
    path.names.foldlM tree.step
      (if path.root = .relative then FilePlace.workingDirectory else ⟨.root, []⟩)

def find (tree : FileTree) (path : Path) : Except FileError FilePlace :=
  match tree.resolve path with
  | .error fault => .error ⟨fault, path⟩
  | .ok place =>
    match tree.node? place, (tree.access place).inspect with
    | none, _ => .error ⟨.notFound, path⟩
    | some _, some e => .error ⟨.refused e, path⟩
    | some _, none => .ok place

def isFile (tree : FileTree) (path : Path) : Except FileError Bool :=
  match tree.find path with
  | .error e => if e.fault.meansNoFile then .ok false else .error e
  | .ok place => .ok (tree.node? place ≠ some .directory)

def unknownTime : Int := 1

def modified (tree : FileTree) (path : Path) : Except FileError Int :=
  (tree.find path).map fun place => ((tree.entryAt? place).map (·.modified)).getD unknownTime

def bytesAt (tree : FileTree) (place : FilePlace) : Except FileFault (List UInt8) :=
  match tree.node? place with
  | none => .error .notFound
  | some node =>
    match (tree.access place).read, node, (tree.access place).readBreak with
    | some e, _, _ => .error (.refused e)
    | none, .directory, _ => .error .isDirectory
    | none, .file _, some e => .error (.brokenOff e)
    | none, .file bytes, none => .ok bytes

def read (tree : FileTree) (path : Path) : Except FileError (List UInt8) :=
  (tree.resolve path >>= tree.bytesAt).mapError (⟨·, path⟩)

def put (tree : FileTree) (place : FilePlace) (node : FileNode) (modified : Int)
    (access : Access := {}) : FileTree :=
  { tree with entries := ⟨place, node, modified, access⟩ :: tree.entries.filter (·.place ≠ place) }

def touch (tree : FileTree) (place : FilePlace) : FileTree where
  entries := tree.entries.map fun entry =>
    if entry.place = place then { entry with modified := tree.clock } else entry
  clock := tree.clock + 1

def remove (tree : FileTree) (place : FilePlace) : FileTree :=
  if tree.node? place = none then tree
  else
    let left := tree.entries.filter fun entry =>
      entry.place.anchor ≠ place.anchor || !place.names.isPrefixOf entry.place.names
    touch { tree with entries := left } place.up

def add (tree : FileTree) (place : FilePlace) (node : FileNode) (modified : Int) : FileTree :=
  if tree.node? place = none then (tree.touch place.up).put place node modified
  else tree.put place node modified (tree.access place)

def addDirectory (tree : FileTree) (place : FilePlace) : FileTree :=
  if tree.node? place = some .directory then tree else tree.add place .directory tree.clock

def addParents (tree : FileTree) (place : FilePlace) : FileTree :=
  (List.range place.names.length).foldl
    (fun tree count => tree.addDirectory ⟨place.anchor, place.names.take count⟩) tree

def addFile (tree : FileTree) (place : FilePlace) (bytes : List UInt8) (modified : Int) :
    FileTree :=
  let tree := if tree.node? place = some .directory then tree.remove place else tree
  tree.add place (.file bytes) modified

def writeAccess (tree : FileTree) (place : FilePlace) : Access :=
  if tree.node? place = none then tree.access place.up else tree.access place

def openToWrite (tree : FileTree) (path : Path) : Except FileError FilePlace :=
  match tree.resolve path with
  | .error fault => .error ⟨fault, path⟩
  | .ok place =>
    if tree.node? place = some .directory then .error ⟨.isDirectory, path⟩
    else
      match (tree.writeAccess place).write with
      | some e => .error ⟨.refused e, path⟩
      | none => .ok place

def fill (tree : FileTree) (place : FilePlace) (bytes : List UInt8) : FileTree :=
  { tree.add place (.file bytes) tree.clock with clock := tree.clock + 1 }

/-- Writes a file. What fails leaves the files in some state too: where writing breaks off, the file
holds no more than the bytes before. -/
def write (tree : FileTree) (path : Path) (bytes : List UInt8) :
    Except (FileError × FileTree) FileTree :=
  match tree.openToWrite path with
  | .error e => .error (e, tree)
  | .ok place =>
    match (tree.writeAccess place).writeBreak.filter (·.1 < bytes.length) with
    | some (count, e) => .error (⟨.brokenOff e, path⟩, tree.fill place (bytes.take count))
    | none => .ok (tree.fill place bytes)

variable (tree : FileTree) (place other : FilePlace) (node : FileNode) (bytes : List UInt8)

theorem entryAt?_put (modified : Int) (access : Access) :
    (tree.put place node modified access).entryAt? other =
      if place = other then some ⟨place, node, modified, access⟩ else tree.entryAt? other := by
  by_cases hp : place = other
  · simp [entryAt?, put, hp]
  · have same : (fun entry : FileEntry => decide
        (decide (entry.place ≠ place) = true ∧ decide (entry.place = other) = true)) =
        fun entry => decide (entry.place = other) := by
      funext entry
      by_cases he : entry.place = other
      · simp [he, Ne.symm hp]
      · simp [he]
    simp only [entryAt?, put, hp, List.find?_cons, List.find?_filter, same, decide_false, if_false]

theorem entryAt?_touch :
    (tree.touch place).entryAt? other = (tree.entryAt? other).map fun entry =>
      if entry.place = place then { entry with modified := tree.clock } else entry := by
  have same : ((fun entry : FileEntry => decide (entry.place = other)) ∘ fun entry =>
      if entry.place = place then { entry with modified := tree.clock } else entry) =
      fun entry => decide (entry.place = other) := by
    funext entry
    by_cases he : entry.place = place <;> simp [he]
  simp only [entryAt?, touch, List.find?_map, same]

theorem node?_put (modified : Int) (access : Access) :
    (tree.put place node modified access).node? other =
      if other.names = [] then some .directory
      else if place = other then some node
      else tree.node? other := by
  unfold node?
  rw [entryAt?_put]
  by_cases root : other.names = []
  · simp [root]
  · by_cases here : place = other <;> simp [root, here]

theorem node?_touch : (tree.touch place).node? other = tree.node? other := by
  unfold node?
  rw [entryAt?_touch]
  cases tree.entryAt? other with
  | none => simp
  | some entry => by_cases here : entry.place = place <;> simp [here]

theorem access_put (modified : Int) (access : Access) :
    (tree.put place node modified access).access other =
      if place = other then access else tree.access other := by
  unfold FileTree.access
  rw [entryAt?_put]
  by_cases here : place = other <;> simp [here]

theorem access_touch : (tree.touch place).access other = tree.access other := by
  unfold access
  rw [entryAt?_touch]
  cases tree.entryAt? other with
  | none => simp
  | some entry => by_cases here : entry.place = place <;> simp [here]

theorem node?_add (modified : Int) :
    (tree.add place node modified).node? other =
      if other.names = [] then some .directory
      else if place = other then some node
      else tree.node? other := by
  unfold add
  split
  · rw [node?_put, node?_touch]
  · exact node?_put ..

theorem access_of_node?_eq_none (absent : tree.node? place = none) : tree.access place = {} := by
  unfold node? at absent
  split at absent
  · contradiction
  · rw [access, Option.map_eq_none_iff.mp absent]
    rfl

theorem access_add (modified : Int) :
    (tree.add place node modified).access other = tree.access other := by
  unfold add
  split
  · next absent =>
    rw [access_put, access_touch]
    by_cases here : place = other
    · rw [if_pos here, ← here, tree.access_of_node?_eq_none place absent]
    · rw [if_neg here]
  · rw [access_put]
    by_cases here : place = other
    · rw [if_pos here, here]
    · rw [if_neg here]

theorem node?_fill (file : tree.node? place ≠ some .directory) :
    (tree.fill place bytes).node? other =
      if place = other then some (.file bytes) else tree.node? other := by
  refine (node?_add ..).trans ?_
  by_cases root : other.names = []
  · have elsewhere : place ≠ other := by
      rintro rfl
      exact file (by simp [node?, root])
    simp [node?, root, elsewhere]
  · simp [root]

theorem access_fill : (tree.fill place bytes).access other = tree.access other :=
  access_add ..

def newFiles (tree before : FileTree) : List (FilePlace × List UInt8) :=
  tree.entries.filterMap fun entry =>
    match entry.node with
    | .directory => none
    | .file bytes =>
      if before.node? entry.place = some (.file bytes) then none else some (entry.place, bytes)

end FileTree
end ScriptLiterals
