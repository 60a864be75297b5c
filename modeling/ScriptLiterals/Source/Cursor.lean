import ScriptLiterals.Source.TokenStream

/-!
Reading a script character by character: a cursor looks at the characters before it, steps over one at
a time and remembers in which loop it is. What it finds are the tokens of `TokenStream.readAll`; the
cursor also tells how it gets there, one turn of a loop after the other.
-/

namespace ScriptLiterals

/-- What a run of word characters belongs to. Parts of a number remember where the number starts. -/
inductive WordRun
  | identifier
  | head (start : Position)
  | markedFraction (start : Position)
  | fraction (start : Position)
  | exponent (start : Position)
  deriving DecidableEq, Repr

/-- The loops of a reading: one over the regions of a script, and those inside of regions. -/
inductive Loop
  | regions
  | lineComment
  | blockComment (depth : Nat)
  | string (quote : Char)
  | word (run : WordRun)
  | finished
  deriving DecidableEq, Repr

structure Cursor where
  loop : Loop
  position : Position
  tokens : List Token
  deriving DecidableEq, Repr

inductive CursorFault
  | pastEnd
  | beforeStart
  deriving DecidableEq, Repr

namespace Cursor

def ofStream (stream : TokenStream) : Cursor := ⟨.regions, stream.position, stream.tokens⟩

def charAt? (source : Text) (offset : Int) : Option Char :=
  if 0 ≤ offset then source[offset.toNat]? else none

def slice (source : Text) (first last : Int) : Text := (source.take last.toNat).drop first.toNat

def peek (source : Text) (cursor : Cursor) (ahead : Int := 0) : Option Char :=
  charAt? source (cursor.position.offset + ahead)

def enter (cursor : Cursor) (loop : Loop) : Cursor := { cursor with loop }

def advance (source : Text) (cursor : Cursor) : Except CursorFault Cursor :=
  match cursor.peek source with
  | some c => .ok { cursor with position := cursor.position.next c }
  | none => .error .pastEnd

def lookBack (source : Text) (cursor : Cursor) : Except CursorFault Char :=
  match cursor.peek source (-1) with
  | some c => .ok c
  | none => .error .beforeStart

def emit (source : Text) (kind : NumberKind) (start : Position) (cursor : Cursor) : Cursor :=
  ⟨.regions, cursor.position, cursor.tokens ++
    [⟨.ofNumber kind, slice source start.offset cursor.position.offset, ⟨start, cursor.position⟩⟩]⟩

def finish (cursor : Cursor) : Cursor :=
  ⟨.finished, cursor.position, cursor.tokens ++ [Token.endAt cursor.position]⟩

def advanceInto (source : Text) (loop : Loop) (cursor : Cursor) : Except CursorFault Cursor :=
  match cursor.advance source with
  | .ok cursor => .ok (cursor.enter loop)
  | .error fault => .error fault

def advanceTwiceInto (source : Text) (loop : Loop) (cursor : Cursor) :
    Except CursorFault Cursor :=
  match cursor.advance source with
  | .ok cursor => cursor.advanceInto source loop
  | .error fault => .error fault

def goesRound (source : Text) (cursor : Cursor) : Bool :=
  match cursor.loop with
  | .regions | .string _ => (cursor.peek source).isSome
  | .lineComment => (cursor.peek source).any (· ≠ '\n')
  | .blockComment depth => (cursor.peek source).isSome && depth ≠ 0
  | .word _ => (cursor.peek source).any isWordChar
  | .finished => false

def turnOverRegions (source : Text) (cursor : Cursor) : Except CursorFault Cursor :=
  match cursor.peek source with
  | none => .error .pastEnd
  | some c =>
    if c = '/' && cursor.peek source 1 = some '/' then .ok (cursor.enter .lineComment)
    else if c = '/' && cursor.peek source 1 = some '*' then
      cursor.advanceTwiceInto source (.blockComment 1)
    else if isQuote c then cursor.advanceInto source (.string c)
    else if startsIdentifier c then .ok (cursor.enter (.word .identifier))
    else if isDigit c then .ok (cursor.enter (.word (.head cursor.position)))
    else cursor.advance source

def turnInBlockComment (source : Text) (depth : Nat) (cursor : Cursor) :
    Except CursorFault Cursor :=
  if cursor.peek source = some '/' && cursor.peek source 1 = some '*' then
    cursor.advanceTwiceInto source (.blockComment (depth + 1))
  else if cursor.peek source = some '*' && cursor.peek source 1 = some '/' then
    cursor.advanceTwiceInto source (.blockComment (depth - 1))
  else cursor.advance source

def turnInString (source : Text) (quote : Char) (cursor : Cursor) : Except CursorFault Cursor :=
  match cursor.peek source, cursor.advance source with
  | some c, .ok cursor =>
    if c = '\\' && (cursor.peek source).isSome then cursor.advance source
    else if c = quote then .ok (cursor.enter .regions)
    else .ok cursor
  | none, _ => .error .pastEnd
  | _, .error fault => .error fault

def turn (source : Text) (cursor : Cursor) : Except CursorFault Cursor :=
  match cursor.loop with
  | .regions => cursor.turnOverRegions source
  | .blockComment depth => cursor.turnInBlockComment source depth
  | .string quote => cursor.turnInString source quote
  | .lineComment | .word _ => cursor.advance source
  | .finished => .ok cursor

def beginsFraction (source : Text) (cursor : Cursor) : Bool :=
  cursor.peek source = some '.' && (cursor.peek source 1).any isDigit

/-- Goes on with a signed exponent, if the number so far ends in an exponent mark and a sign with a
digit behind it follows. Without one the number ends here. -/
def leaveForExponent (source : Text) (start : Position) (without : NumberKind) (cursor : Cursor) :
    Except CursorFault Cursor :=
  match cursor.lookBack source with
  | .error fault => .error fault
  | .ok last =>
    if isExponentMark last && (cursor.peek source).any isSign &&
        (cursor.peek source 1).any isDigit then
      cursor.advanceInto source (.word (.exponent start))
    else .ok (cursor.emit source without start)

def leaveHead (source : Text) (start : Position) (cursor : Cursor) : Except CursorFault Cursor :=
  let head := slice source start.offset cursor.position.offset
  if (Radix.detect head).1 ≠ .decimal then
    if cursor.beginsFraction source then
      cursor.advanceInto source (.word (.markedFraction start))
    else .ok (cursor.emit source .integer start)
  else if cursor.beginsFraction source then cursor.advanceInto source (.word (.fraction start))
  else if Lexeme.hasExponent head then .ok (cursor.emit source .float start)
  else if Lexeme.endsAtExponentMark head then cursor.leaveForExponent source start .integer
  else .ok (cursor.emit source .integer start)

def leave (source : Text) (cursor : Cursor) : Except CursorFault Cursor :=
  match cursor.loop with
  | .regions => .ok cursor.finish
  | .lineComment | .blockComment _ | .string _ | .word .identifier => .ok (cursor.enter .regions)
  | .word (.head start) => cursor.leaveHead source start
  | .word (.markedFraction start) => .ok (cursor.emit source .integer start)
  | .word (.fraction start) => cursor.leaveForExponent source start .float
  | .word (.exponent start) => .ok (cursor.emit source .float start)
  | .finished => .ok cursor

/-- From the head of a loop to the next: one turn, or out of the loop. -/
def step (source : Text) (cursor : Cursor) : Except CursorFault Cursor :=
  if cursor.goesRound source then cursor.turn source else cursor.leave source

def walk (source : Text) : Nat → Cursor → Except CursorFault Cursor
  | 0, cursor => .ok cursor
  | steps + 1, cursor =>
    match cursor.step source with
    | .ok next => walk source steps next
    | .error fault => .error fault

end Cursor
end ScriptLiterals
