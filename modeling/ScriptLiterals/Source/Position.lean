import ScriptLiterals.Text.Basic

/-!
Places in a script. Lines and columns count from one and offsets from zero; only a line feed begins
a new line.
-/

namespace ScriptLiterals

structure Position where
  line : Int
  column : Int
  offset : Int
  deriving DecidableEq, Repr

namespace Position

def start : Position := ⟨1, 1, 0⟩

def advance (p : Position) (count : Int) : Position := ⟨p.line, p.column + count, p.offset + count⟩

def next (p : Position) (c : Char) : Position :=
  if c = '\n' then ⟨p.line + 1, 1, p.offset + 1⟩ else ⟨p.line, p.column + 1, p.offset + 1⟩

def after (p : Position) (text : Text) : Position := text.foldl next p

end Position

structure Span where
  start : Position
  stop : Position
  deriving DecidableEq, Repr

end ScriptLiterals
