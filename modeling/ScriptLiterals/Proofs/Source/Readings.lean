import ScriptLiterals.Proofs.Source.Walking

/-!
A stream that is read again and again. Each reading walks from where the stream stands to the end of
the script, and all but the first find nothing but one more end mark.

Main statement: `TokenStream.isWalkedThrough_and_repeats`.
-/

namespace ScriptLiterals

/-- The walk of a reading: it never leaves the script, each turn of a loop goes further, and it ends
with what the reading gives. -/
structure TokenStream.IsWalkedThrough (stream : TokenStream) (source : Text) : Prop where
  inside : ∀ steps, ∃ cursor, (Cursor.ofStream stream).walk source steps = .ok cursor ∧
    0 ≤ cursor.position.offset ∧ cursor.position.offset ≤ source.length
  turn_in_region : ∀ steps cursor next,
    (Cursor.ofStream stream).walk source steps = .ok cursor → cursor.step source = .ok next →
      cursor.loop ≠ .regions → cursor.goesRound source = true →
        cursor.position.offset < next.position.offset
  turn_over_regions : ∀ steps cursor, (Cursor.ofStream stream).walk source steps = .ok cursor →
    cursor.loop = .regions → cursor.goesRound source = true →
      (∃ more later, cursor.walk source (more + 1) = .ok later ∧ later.loop = .regions) ∧
      ∀ more later, cursor.walk source (more + 1) = .ok later → later.loop = .regions →
        cursor.position.offset < later.position.offset
  ends : ∃ steps, (Cursor.ofStream stream).walk source steps =
    .ok ⟨.finished, stream.readAll.position, stream.readAll.tokens⟩
  at_end : stream.readAll.position.offset = source.length

variable {source rest : Text} {p : Position}

namespace Cursor

variable {cursor : Cursor}

theorem IsInside.isBefore (inside : cursor.IsInside source) :
    cursor.position.IsBefore source (source.drop cursor.position.offset.toNat) := by
  have nonneg := inside.nonneg
  have bounded := inside.bounded
  refine ⟨source.take cursor.position.offset.toNat, (List.take_append_drop ..).symm, ?_⟩
  rw [List.length_take]
  omega

theorem IsInside.exists_walk_regions (inside : cursor.IsInside source)
    (atLoop : cursor.loop = .regions) (turn : cursor.goesRound source = true) :
    ∃ more later, cursor.walk source (more + 1) = .ok later ∧ later.loop = .regions := by
  rcases cursor with ⟨loop, p, tokens⟩
  obtain rfl : loop = .regions := atLoop
  have place := inside.isBefore
  cases left : source.drop p.offset.toNat with
  | nil =>
    rw [left] at place
    simp [goesRound, peek_front place] at turn
  | cons c rest =>
    rw [left, ← Lexeme.first_append] at place
    have region := Lexeme.first_sound c rest
    have leads := @leads_region source _ p tokens _ region place
    rcases leads.exists_walk with ⟨steps, walked⟩
    cases steps with
    | zero =>
      -- the region is not empty, so the cursor behind it is another
      have same := congrArg (fun cursor => cursor.position.offset) (Except.ok.inj walked)
      have length := List.length_pos_iff.mpr region.text_ne_nil
      simp only [beyond, Position.offset_after] at same
      omega
    | succ more => exact ⟨more, _, walked, rfl⟩

end Cursor

namespace TokenStream

variable {stream : TokenStream}

theorem leads_readAll (place : stream.position.IsBefore source stream.rest) :
    Cursor.Leads source (Cursor.ofStream stream)
      ⟨.finished, stream.readAll.position, stream.readAll.tokens⟩ := by
  have behind : (stream.position.after stream.rest).IsBefore source [] := by
    apply Position.IsBefore.after
    rwa [List.append_nil]
  have leads := @Cursor.leads_lexemes source _ _ stream.tokens _ (isCutInto_lexemes stream.rest) place
  apply leads.trans
  apply Cursor.LeadsFrom.leave
  · simp [Cursor.goesRound, Cursor.peek_front behind]
  · exact ⟨_, rfl, .refl⟩

theorem isWalkedThrough (place : stream.position.IsBefore source stream.rest) :
    stream.IsWalkedThrough source := by
  have inside : (Cursor.ofStream stream).IsInside source := by
    rcases place with ⟨before, rfl, offset⟩
    refine ⟨?_, ?_, by simp [Cursor.ofStream]⟩
    · simp [Cursor.ofStream, offset]
    · simp [Cursor.ofStream, offset]
  constructor
  · intro steps
    rcases inside.walk steps with ⟨cursor, walked, inside', -⟩
    exact ⟨cursor, walked, inside'.nonneg, inside'.bounded⟩
  · intro steps cursor next walked stepped inner turn
    have turns := (inside.of_walk walked).1.turns stepped
    exact (turns.progress turn).resolve_right fun entered => inner entered.1
  · intro steps cursor walked atLoop turn
    have reached := (inside.of_walk walked).1
    refine ⟨reached.exists_walk_regions atLoop turn, ?_⟩
    intro more later further again
    exact reached.lt_of_walk turn further again
  · exact (leads_readAll place).exists_walk
  · rcases place with ⟨before, rfl, offset⟩
    simp [readAll, Position.offset_after, offset]

theorem isBefore_iterate (source : Text) (calls : Nat) :
    (readAll^[calls] (ofSource source)).position.IsBefore source
      (readAll^[calls] (ofSource source)).rest := by
  induction calls with
  | zero => exact ⟨[], rfl, rfl⟩
  | succ calls ih =>
    rw [Function.iterate_succ_apply']
    apply Position.IsBefore.after
    rwa [readAll, List.append_nil]

theorem iterate_readAll (source : Text) (calls : Nat) :
    readAll^[calls + 1] (ofSource source) =
      ⟨[], Position.start.after source,
        Token.ofSource source ++
          List.replicate calls (Token.endAt (Position.start.after source))⟩ := by
  induction calls with
  | zero => simp [Token.ofSource, readAll, ofSource]
  | succ calls ih =>
    rw [Function.iterate_succ_apply', ih, List.replicate_succ']
    simp [readAll, lexemes, Token.ofLexemes]

theorem readings_eq (stream : TokenStream) (times : Nat) :
    stream.readings times = (List.range times).map fun call => (readAll^[call + 1] stream).tokens := by
  induction times generalizing stream with
  | zero => rfl
  | succ times ih =>
    rw [readings, ih, List.range_succ_eq_map, List.map_cons, List.map_map]
    rfl

/-- However often a script is read: no reading looks for a character where the script has none, all of
them end at its end, and each gives the tokens of the script with one more end mark than the last. -/
theorem isWalkedThrough_and_repeats (source : Text) :
    (∀ calls, (readAll^[calls] (ofSource source)).IsWalkedThrough source) ∧
    (∀ calls, (readAll^[calls] (ofSource source)).readAll.tokens = Token.ofSource source ++
      List.replicate calls (Token.endAt (Position.start.after source))) ∧
    (∃ numbers, Token.ofSource source = numbers ++ [Token.endAt (Position.start.after source)]) ∧
    (∀ times, (ofSource source).readings times = (List.range times).map fun calls =>
      Token.ofSource source ++ List.replicate calls (Token.endAt (Position.start.after source))) ∧
    (∀ cursor, (∃ fault, Cursor.advance source cursor = .error fault) ↔
      ¬ (0 ≤ cursor.position.offset ∧ cursor.position.offset < source.length)) ∧
    (∀ cursor, (∃ fault, Cursor.lookBack source cursor = .error fault) ↔
      ¬ (1 ≤ cursor.position.offset ∧ cursor.position.offset ≤ source.length)) := by
  refine ⟨?_, ?_, ⟨_, Token.ofSource_eq source⟩, ?_, Cursor.advance_eq_error_iff source,
    Cursor.lookBack_eq_error_iff source⟩
  · intro calls
    exact isWalkedThrough (isBefore_iterate source calls)
  · intro calls
    rw [← Function.iterate_succ_apply' readAll, iterate_readAll]
  · intro times
    simp only [readings_eq, iterate_readAll]

example : (Cursor.ofStream (ofSource ['a', '\'', '\\'])).walk ['a', '\'', '\\'] 7 =
    .ok ⟨.finished, ⟨1, 4, 3⟩, [Token.endAt ⟨1, 4, 3⟩]⟩ := rfl

end TokenStream
end ScriptLiterals
