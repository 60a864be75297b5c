import ScriptLiterals.Proofs.Source.Character
import ScriptLiterals.Proofs.Source.Place
import ScriptLiterals.Source.Cursor

/-!
A cursor never leaves its script: it steps over a character only where there is one, and looks back
only behind one. Each turn of a loop brings it further; a turn of the loop over the regions may do so
in the first turn of the loop that it begins.

Main statements: one step (`IsInside.step`), a whole walk (`IsInside.walk`) and a walk to the next
region (`IsInside.lt_of_walk`).
-/

namespace ScriptLiterals

namespace Cursor

variable {source : Text} {cursor next : Cursor} {c d : Char} {loop : Loop}

theorem charAt?_eq_none_iff (source : Text) (offset : Int) :
    charAt? source offset = none ↔ ¬ (0 ≤ offset ∧ offset < source.length) := by
  unfold charAt?
  split_ifs with nonneg
  · rw [List.getElem?_eq_none_iff]
    omega
  · simp [nonneg]

theorem bounds_of_charAt? {offset : Int} (found : charAt? source offset = some c) :
    0 ≤ offset ∧ offset < source.length := by
  by_contra outside
  rw [(charAt?_eq_none_iff source offset).mpr outside] at found
  contradiction

theorem advance_eq_error_iff (source : Text) (cursor : Cursor) :
    (∃ fault, cursor.advance source = .error fault) ↔
      ¬ (0 ≤ cursor.position.offset ∧ cursor.position.offset < source.length) := by
  rw [← charAt?_eq_none_iff, advance, peek, add_zero]
  cases charAt? source cursor.position.offset <;> simp

theorem lookBack_eq_error_iff (source : Text) (cursor : Cursor) :
    (∃ fault, cursor.lookBack source = .error fault) ↔
      ¬ (1 ≤ cursor.position.offset ∧ cursor.position.offset ≤ source.length) := by
  have shifted : ¬ (1 ≤ cursor.position.offset ∧ cursor.position.offset ≤ source.length) ↔
      ¬ (0 ≤ cursor.position.offset + -1 ∧ cursor.position.offset + -1 < source.length) := by
    omega
  rw [shifted, ← charAt?_eq_none_iff, lookBack, peek]
  cases charAt? source (cursor.position.offset + -1) <;> simp

theorem advance_of_peek (found : cursor.peek source = some c) :
    cursor.advance source = .ok { cursor with position := cursor.position.next c } := by
  rw [advance, found]

theorem advanceInto_of_peek (found : cursor.peek source = some c) (loop : Loop) :
    cursor.advanceInto source loop =
      .ok { cursor with position := cursor.position.next c, loop } := by
  rw [advanceInto, advance_of_peek found]
  rfl

theorem peek_behind (found : cursor.peek source 1 = some d) (loop : Loop) (c : Char) :
    peek source { cursor with position := cursor.position.next c, loop } = some d := by
  rw [peek, Position.offset_next, add_zero]
  exact found

theorem advanceTwiceInto_of_peek (found : cursor.peek source = some c)
    (behind : cursor.peek source 1 = some d) (loop : Loop) :
    cursor.advanceTwiceInto source loop =
      .ok { cursor with position := (cursor.position.next c).next d, loop } := by
  rw [advanceTwiceInto, advance_of_peek found]
  exact advanceInto_of_peek (peek_behind behind cursor.loop c) loop

theorem goesRound_enter_lineComment (found : cursor.peek source = some c) :
    (cursor.enter .lineComment).goesRound source = decide (c ≠ '\n') := by
  have same : (cursor.enter .lineComment).peek source = some c := found
  rw [goesRound, same]
  rfl

theorem goesRound_enter_word (found : cursor.peek source = some c) (run : WordRun) :
    (cursor.enter (.word run)).goesRound source = isWordChar c := by
  have same : (cursor.enter (.word run)).peek source = some c := found
  rw [goesRound, same]
  rfl

/-- A cursor in a script or at its end. Behind a point it has stepped over something. -/
structure IsInside (source : Text) (cursor : Cursor) : Prop where
  nonneg : 0 ≤ cursor.position.offset
  bounded : cursor.position.offset ≤ source.length
  behindPoint : ∀ start, cursor.loop = .word (.fraction start) → 0 < cursor.position.offset

/-- What a step from a loop head to the next comes to. -/
structure Turns (source : Text) (cursor next : Cursor) : Prop where
  inside : next.IsInside source
  le : cursor.position.offset ≤ next.position.offset
  progress : cursor.goesRound source = true →
    cursor.position.offset < next.position.offset ∨
      cursor.loop = .regions ∧ next.loop ≠ .regions ∧ next.goesRound source = true

def TurnsInto (source : Text) (cursor : Cursor) (given : Except CursorFault Cursor) : Prop :=
  ∃ next, given = .ok next ∧ Turns source cursor next

theorem Turns.of_lt (inside : cursor.IsInside source)
    (further : cursor.position.offset < next.position.offset)
    (bounded : next.position.offset ≤ source.length) : Turns source cursor next where
  inside := by
    have nonneg := inside.nonneg
    exact ⟨by omega, bounded, fun _ _ => by omega⟩
  le := further.le
  progress := fun _ => .inl further

theorem Turns.of_leaving (inside : cursor.IsInside source)
    (place : next.position = cursor.position) (ends : cursor.goesRound source = false)
    (noPoint : ∀ start, next.loop ≠ .word (.fraction start)) : Turns source cursor next where
  inside := by
    refine ⟨place ▸ inside.nonneg, place ▸ inside.bounded, ?_⟩
    intro start point
    exact absurd point (noPoint start)
  le := by rw [place]
  progress := by
    intro turn
    rw [ends] at turn
    contradiction

section Moves

variable (inside : cursor.IsInside source)
include inside

theorem turns_advanceInto (found : cursor.peek source = some c) (loop : Loop) :
    TurnsInto source cursor (cursor.advanceInto source loop) := by
  refine ⟨_, advanceInto_of_peek found loop, .of_lt inside ?_ ?_⟩
  · simp [Position.offset_next]
  · have bounds := bounds_of_charAt? found
    simp only [Position.offset_next]
    omega

theorem turns_advance (found : cursor.peek source = some c) :
    TurnsInto source cursor (cursor.advance source) := by
  rw [advance_of_peek found, ← advanceInto_of_peek found cursor.loop]
  exact turns_advanceInto inside found cursor.loop

theorem turns_advanceTwiceInto (found : cursor.peek source = some c)
    (behind : cursor.peek source 1 = some d) (loop : Loop) :
    TurnsInto source cursor (cursor.advanceTwiceInto source loop) := by
  refine ⟨_, advanceTwiceInto_of_peek found behind loop, .of_lt inside ?_ ?_⟩
  · simp only [Position.offset_next]
    omega
  · have bounds := bounds_of_charAt? behind
    simp only [Position.offset_next]
    omega

theorem turns_enter_regions (ends : cursor.goesRound source = false) :
    TurnsInto source cursor (.ok (cursor.enter .regions)) := by
  refine ⟨_, rfl, .of_leaving inside rfl ends ?_⟩
  simp [enter]

theorem turns_emit (ends : cursor.goesRound source = false) (kind : NumberKind) (start : Position) :
    TurnsInto source cursor (.ok (cursor.emit source kind start)) := by
  refine ⟨_, rfl, .of_leaving inside rfl ends ?_⟩
  simp [emit]

theorem turns_enter (atLoop : cursor.loop = .regions) (inner : loop ≠ .regions)
    (noPoint : ∀ start, loop ≠ .word (.fraction start))
    (turn : (cursor.enter loop).goesRound source = true) :
    TurnsInto source cursor (.ok (cursor.enter loop)) := by
  refine ⟨_, rfl, ?_, le_rfl, fun _ => .inr ⟨atLoop, inner, turn⟩⟩
  refine ⟨inside.nonneg, inside.bounded, ?_⟩
  intro start point
  exact absurd point (noPoint start)

theorem turns_turnOverRegions (atLoop : cursor.loop = .regions)
    (turn : cursor.goesRound source = true) :
    TurnsInto source cursor (cursor.turnOverRegions source) := by
  simp only [goesRound, atLoop, Option.isSome_iff_exists] at turn
  rcases turn with ⟨c, found⟩
  simp only [turnOverRegions, found]
  split_ifs with line block quote starts digit
  · simp only [Bool.and_eq_true, decide_eq_true_eq] at line
    apply turns_enter inside atLoop (by simp) (by simp)
    rw [goesRound_enter_lineComment found, line.1]
    rfl
  · simp only [Bool.and_eq_true, decide_eq_true_eq] at block
    exact turns_advanceTwiceInto inside found block.2 _
  · exact turns_advanceInto inside found _
  · apply turns_enter inside atLoop (by simp) (by simp)
    rw [goesRound_enter_word found]
    exact isWordChar_of_startsIdentifier starts
  · apply turns_enter inside atLoop (by simp) (by simp)
    rw [goesRound_enter_word found]
    exact isWordChar_of_isDigit digit
  · exact turns_advance inside found

theorem turns_turnInBlockComment (found : cursor.peek source = some c) (depth : Nat) :
    TurnsInto source cursor (cursor.turnInBlockComment source depth) := by
  unfold turnInBlockComment
  split_ifs with opening closing
  · simp only [Bool.and_eq_true, decide_eq_true_eq] at opening
    exact turns_advanceTwiceInto inside opening.1 opening.2 _
  · simp only [Bool.and_eq_true, decide_eq_true_eq] at closing
    exact turns_advanceTwiceInto inside closing.1 closing.2 _
  · exact turns_advance inside found

theorem turns_turnInString (found : cursor.peek source = some c) (quote : Char) :
    TurnsInto source cursor (cursor.turnInString source quote) := by
  rcases turns_advance inside found with ⟨behind, advanced, turns⟩
  have further : cursor.position.offset < behind.position.offset := by
    rw [advance_of_peek found] at advanced
    rw [← Except.ok.inj advanced, Position.offset_next]
    omega
  simp only [turnInString, found, advanced]
  split_ifs with escape
  · simp only [Bool.and_eq_true, Option.isSome_iff_exists] at escape
    rcases escape.2 with ⟨d, hidden⟩
    rcases turns_advance turns.inside hidden with ⟨next, advanced', turns'⟩
    exact ⟨next, advanced', .of_lt inside (by have := turns'.le; omega) turns'.inside.bounded⟩
  · exact ⟨_, rfl, .of_lt inside further turns.inside.bounded⟩
  · exact ⟨_, rfl, turns⟩

theorem turns_turn (turn : cursor.goesRound source = true) :
    TurnsInto source cursor (cursor.turn source) := by
  have goesOn := turn
  unfold goesRound at goesOn
  unfold Cursor.turn
  -- a loop goes round only if it sees a character, which is the one that its turn needs
  cases atLoop : cursor.loop with
  | regions => exact turns_turnOverRegions inside atLoop turn
  | lineComment =>
    simp only [atLoop, Option.any_eq_true] at goesOn
    rcases goesOn with ⟨c, found, -⟩
    exact turns_advance inside found
  | blockComment depth =>
    simp only [atLoop, Bool.and_eq_true, Option.isSome_iff_exists] at goesOn
    rcases goesOn.1 with ⟨c, found⟩
    exact turns_turnInBlockComment inside found depth
  | string quote =>
    simp only [atLoop, Option.isSome_iff_exists] at goesOn
    rcases goesOn with ⟨c, found⟩
    exact turns_turnInString inside found quote
  | word run =>
    simp only [atLoop, Option.any_eq_true] at goesOn
    rcases goesOn with ⟨c, found, -⟩
    exact turns_advance inside found
  | finished => simp [atLoop] at goesOn

variable (ends : cursor.goesRound source = false)
include ends

theorem turns_leaveForExponent (positive : 0 < cursor.position.offset) (start : Position)
    (without : NumberKind) :
    TurnsInto source cursor (cursor.leaveForExponent source start without) := by
  unfold leaveForExponent
  cases read : cursor.lookBack source with
  | error fault =>
    have bounded := inside.bounded
    have outside := (lookBack_eq_error_iff source cursor).mp ⟨fault, read⟩
    omega
  | ok last =>
    dsimp only
    split_ifs with goesOn
    · simp only [Bool.and_eq_true, Option.any_eq_true] at goesOn
      rcases goesOn.1.2 with ⟨sign, found, -⟩
      exact turns_advanceInto inside found _
    · exact turns_emit inside ends without start

theorem turns_leaveHead (start : Position) :
    TurnsInto source cursor (cursor.leaveHead source start) := by
  have stops := turns_emit inside ends
  have goesOn : ∀ loop, cursor.beginsFraction source = true →
      TurnsInto source cursor (cursor.advanceInto source loop) := by
    intro loop point
    simp only [beginsFraction, Bool.and_eq_true, decide_eq_true_eq] at point
    exact turns_advanceInto inside point.1 loop
  unfold leaveHead
  dsimp only
  split_ifs with marked point point exponent mark
  · exact goesOn _ point
  · exact stops .integer start
  · exact goesOn _ point
  · exact stops .float start
  · have positive : 0 < cursor.position.offset := by
      by_contra atStart
      have none : cursor.position.offset.toNat = 0 := by omega
      rw [slice, none, List.take_zero, List.drop_nil] at mark
      contradiction
    exact turns_leaveForExponent inside ends positive start .integer
  · exact stops .integer start

theorem turns_leave : TurnsInto source cursor (cursor.leave source) := by
  have stops := turns_emit inside ends
  have returns := turns_enter_regions inside ends
  unfold Cursor.leave
  cases atLoop : cursor.loop with
  | regions => exact ⟨_, rfl, .of_leaving inside rfl ends (by simp [finish])⟩
  | lineComment | blockComment | string => exact returns
  | word run =>
    cases run with
    | identifier => exact returns
    | head start => exact turns_leaveHead inside ends start
    | markedFraction start => exact stops .integer start
    | fraction start =>
      exact turns_leaveForExponent inside ends (inside.behindPoint start atLoop) start .float
    | exponent start => exact stops .float start
  | finished => exact ⟨_, rfl, .of_leaving inside rfl ends (by simp [atLoop])⟩

end Moves

theorem IsInside.step (inside : cursor.IsInside source) :
    TurnsInto source cursor (cursor.step source) := by
  unfold Cursor.step
  split_ifs with turn
  · exact turns_turn inside turn
  · exact turns_leave inside (Bool.not_eq_true _ ▸ turn)

theorem IsInside.turns (inside : cursor.IsInside source) (stepped : cursor.step source = .ok next) :
    Turns source cursor next := by
  rcases inside.step with ⟨reached, same, turns⟩
  rw [stepped] at same
  rwa [Except.ok.inj same]

theorem IsInside.walk (inside : cursor.IsInside source) (steps : Nat) :
    ∃ next, cursor.walk source steps = .ok next ∧ next.IsInside source ∧
      cursor.position.offset ≤ next.position.offset := by
  induction steps generalizing cursor with
  | zero => exact ⟨cursor, rfl, inside, le_rfl⟩
  | succ steps ih =>
    rcases inside.step with ⟨behind, turned, turns⟩
    rcases ih turns.inside with ⟨next, walked, inside', further⟩
    refine ⟨next, ?_, inside', le_trans turns.le further⟩
    rw [Cursor.walk, turned]
    exact walked

theorem IsInside.of_walk (inside : cursor.IsInside source) {steps : Nat}
    (walked : cursor.walk source steps = .ok next) :
    next.IsInside source ∧ cursor.position.offset ≤ next.position.offset := by
  rcases inside.walk steps with ⟨reached, same, reaches⟩
  rw [walked] at same
  rwa [Except.ok.inj same]

/-- Until a walk is at the loop over the regions again, a turn of a loop has gone further. -/
theorem IsInside.lt_of_walk (inside : cursor.IsInside source)
    (turn : cursor.goesRound source = true) {steps : Nat}
    (walked : cursor.walk source (steps + 1) = .ok next) (again : next.loop = .regions) :
    cursor.position.offset < next.position.offset := by
  rcases inside.step with ⟨behind, stepped, turns⟩
  rw [Cursor.walk, stepped] at walked
  dsimp only at walked
  rcases turns.progress turn with further | ⟨-, inner, turn'⟩
  · exact lt_of_lt_of_le further (turns.inside.of_walk walked).2
  · -- the loop of a region has begun, and its first turn goes further
    cases steps with
    | zero => exact absurd again (Except.ok.inj walked ▸ inner)
    | succ steps =>
      rcases turns.inside.step with ⟨third, stepped', turns'⟩
      rw [Cursor.walk, stepped'] at walked
      have further := (turns'.progress turn').resolve_right fun entered => inner entered.1
      calc
        cursor.position.offset ≤ behind.position.offset := turns.le
        _ < third.position.offset := further
        _ ≤ next.position.offset := (turns'.inside.of_walk walked).2

end Cursor
end ScriptLiterals
