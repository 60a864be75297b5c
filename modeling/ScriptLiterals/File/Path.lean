import ScriptLiterals.Text.Utf8

/-!
Paths. A path keeps its names and what it begins with; empty names, single dots and slashes at the
end are dropped when it is read, and double dots are kept.
-/

namespace ScriptLiterals

/-- What a path begins with. Two slashes are not the same as one, but three are. -/
inductive PathRoot
  | relative
  | slash
  | doubleSlash
  deriving DecidableEq, Repr

def PathRoot.text : PathRoot → Text
  | relative => []
  | slash => ['/']
  | doubleSlash => ['/', '/']

structure Path where
  root : PathRoot
  names : List Text
  deriving DecidableEq, Repr

namespace Path

def ofText (text : Text) : Path :=
  let root : PathRoot :=
    match (text.takeWhile (· = '/')).length with
    | 0 => .relative
    | 2 => .doubleSlash
    | _ => .slash
  ⟨root, (Text.pieces '/' text).filter fun name => name ≠ [] && name ≠ ['.']⟩

def text (path : Path) : Text :=
  if path.root = .relative && path.names.isEmpty then ['.']
  else path.root.text ++ Text.joined ['/'] path.names

def parent (path : Path) : Path := { path with names := path.names.dropLast }

def child (path : Path) (name : Text) : Path := { path with names := path.names ++ [name] }

def maxNameSize : Nat := 255

def maxSize : Nat := 4095

def hasNul (path : Path) : Bool := path.names.any ('\x00' ∈ ·)

end Path
end ScriptLiterals
