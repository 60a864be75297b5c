import ScriptLiterals.Proofs.Source.Progress
import ScriptLiterals.Proofs.Source.Tokens

/-!
A cursor that goes through a script character by character finds the tokens of the stream that it
stands on: each of its loops stops where the region ends that the loop belongs to.

Main statements: `leads_region` for one region, `leads_lexemes` for all that are left.
-/

namespace ScriptLiterals

def Position.IsBefore (p : Position) (source rest : Text) : Prop :=
  ∃ before, source = before ++ rest ∧ p.offset = before.length

namespace Position.IsBefore

variable {p : Position} {source text rest : Text} {c : Char}

theorem next (place : p.IsBefore source (c :: rest)) : (p.next c).IsBefore source rest := by
  rcases place with ⟨before, whole, offset⟩
  refine ⟨before ++ [c], by simp [whole], ?_⟩
  rw [offset_next, offset, List.length_append]
  rfl

theorem after (place : p.IsBefore source (text ++ rest)) :
    (p.after text).IsBefore source rest := by
  induction text generalizing p with
  | nil => exact place
  | cons c text ih => exact ih place.next

end Position.IsBefore

namespace Cursor

def Leads (source : Text) : Cursor → Cursor → Prop :=
  Relation.ReflTransGen fun cursor next => cursor.step source = .ok next

def LeadsFrom (source : Text) (given : Except CursorFault Cursor) (last : Cursor) : Prop :=
  ∃ next, given = .ok next ∧ Leads source next last

variable {source text rest : Text} {cursor next last : Cursor} {p : Position} {c : Char}
  {loop : Loop} {tokens : List Token}

theorem LeadsFrom.turn (turn : cursor.goesRound source = true)
    (led : LeadsFrom source (cursor.turn source) last) : Leads source cursor last := by
  rcases led with ⟨next, turned, leads⟩
  apply Relation.ReflTransGen.head _ leads
  rw [step, if_pos turn, turned]

theorem LeadsFrom.leave (ends : cursor.goesRound source = false)
    (led : LeadsFrom source (cursor.leave source) last) : Leads source cursor last := by
  rcases led with ⟨next, left, leads⟩
  apply Relation.ReflTransGen.head _ leads
  rw [step, ends, if_neg Bool.false_ne_true, left]

theorem Leads.exists_walk (leads : Leads source cursor last) :
    ∃ steps, cursor.walk source steps = .ok last := by
  induction leads using Relation.ReflTransGen.head_induction_on with
  | refl => exact ⟨0, rfl⟩
  | head stepped _ ih =>
    rcases ih with ⟨steps, walked⟩
    refine ⟨steps + 1, ?_⟩
    rw [walk, stepped]
    exact walked

theorem charAt?_ahead (place : p.IsBefore source rest) (ahead : Nat) :
    charAt? source (p.offset + ahead) = rest[ahead]? := by
  rcases place with ⟨before, rfl, offset⟩
  have index : (p.offset + ahead).toNat = before.length + ahead := by omega
  rw [charAt?, if_pos (by omega), index, List.getElem?_append_right (Nat.le_add_right ..),
    Nat.add_sub_cancel_left]

theorem peek_front (place : p.IsBefore source rest) :
    peek source ⟨loop, p, tokens⟩ = rest.head? := by
  rw [List.head?_eq_getElem?]
  exact charAt?_ahead place 0

theorem peek_second (place : p.IsBefore source (c :: rest)) :
    peek source ⟨loop, p, tokens⟩ 1 = rest.head? := by
  rw [List.head?_eq_getElem?]
  exact charAt?_ahead place 1

theorem advanceInto_front (place : p.IsBefore source (c :: rest)) (inner : Loop) :
    advanceInto source inner ⟨loop, p, tokens⟩ = .ok ⟨inner, p.next c, tokens⟩ :=
  advanceInto_of_peek (peek_front place) inner

theorem advance_front (place : p.IsBefore source (c :: rest)) :
    advance source ⟨loop, p, tokens⟩ = .ok ⟨loop, p.next c, tokens⟩ :=
  advance_of_peek (peek_front place)

theorem advanceTwiceInto_front {d : Char} (place : p.IsBefore source (c :: d :: rest))
    (inner : Loop) :
    advanceTwiceInto source inner ⟨loop, p, tokens⟩ = .ok ⟨inner, (p.next c).next d, tokens⟩ :=
  advanceTwiceInto_of_peek (peek_front place) (peek_second place) inner

theorem lookBack_after (place : p.IsBefore source (text ++ rest)) (nonempty : text ≠ []) :
    ∃ c, text.getLast? = some c ∧ lookBack source ⟨loop, p.after text, tokens⟩ = .ok c := by
  rcases List.eq_nil_or_concat' text with rfl | ⟨front, c, rfl⟩
  · contradiction
  · have found : charAt? source (p.offset + front.length) = some c := by
      rw [charAt?_ahead place, List.append_assoc, List.getElem?_append_right (le_refl _)]
      simp
    have index : (p.after (front ++ [c])).offset + -1 = p.offset + front.length := by
      rw [Position.offset_after, List.length_append, List.length_singleton]
      push_cast
      ring
    refine ⟨c, by simp, ?_⟩
    rw [lookBack, peek, index, found]

theorem slice_after (place : p.IsBefore source (text ++ rest)) :
    slice source p.offset (p.after text).offset = text := by
  rcases place with ⟨before, rfl, offset⟩
  have first : p.offset.toNat = before.length := by omega
  have last : (p.after text).offset.toNat = (before ++ text).length := by
    rw [Position.offset_after, List.length_append]
    omega
  rw [slice, first, last, ← List.append_assoc, List.take_left, List.drop_left]

theorem leads_run {among : Char → Bool} (isLoop : loop = .lineComment ∨ ∃ run, loop = .word run)
    (goesOn : ∀ {p : Position} {c : Char} {rest : Text}, p.IsBefore source (c :: rest) →
      among c = true → goesRound source ⟨loop, p, tokens⟩ = true)
    (place : p.IsBefore source (text ++ rest)) (inside : ∀ c ∈ text, among c = true) :
    Leads source ⟨loop, p, tokens⟩ ⟨loop, p.after text, tokens⟩ := by
  induction text generalizing p with
  | nil => exact .refl
  | cons c text ih =>
    rcases List.forall_mem_cons.mp inside with ⟨first, others⟩
    apply LeadsFrom.turn (goesOn place first)
    refine ⟨⟨loop, p.next c, tokens⟩, ?_, ih place.next others⟩
    rcases isLoop with rfl | ⟨run, rfl⟩
    · exact advance_front place
    · exact advance_front place

theorem leads_lineComment (place : p.IsBefore source (text ++ rest))
    (isRun : IsRun (· ≠ '\n') text rest) :
    Leads source ⟨.lineComment, p, tokens⟩ ⟨.regions, p.after text, tokens⟩ := by
  have through : Leads source ⟨.lineComment, p, tokens⟩ ⟨.lineComment, p.after text, tokens⟩ := by
    apply leads_run (.inl rfl) _ place isRun.1
    intro p c rest place other
    simpa only [goesRound, peek_front place, List.head?_cons, Option.any_some] using other
  apply through.trans
  apply LeadsFrom.leave
  · rw [goesRound, peek_front place.after]
    exact isRun.any_head?
  · exact ⟨_, rfl, .refl⟩

theorem leads_blockComment (depth : Nat) (place : p.IsBefore source rest) :
    Leads source ⟨.blockComment depth, p, tokens⟩
      ⟨.regions, p.after (Lexeme.blockBody depth rest).1, tokens⟩ := by
  -- the cut recurses where the loop goes round, over two characters if they are a mark
  fun_induction Lexeme.blockBody depth rest generalizing p with
  | case1 =>
    apply LeadsFrom.leave
    · simp [goesRound]
    · exact ⟨_, rfl, .refl⟩
  | case2 depth =>
    apply LeadsFrom.leave
    · simp [goesRound, peek_front place]
    · exact ⟨_, rfl, .refl⟩
  | case3 depth rest ih =>
    apply LeadsFrom.turn
    · simp [goesRound, peek_front place]
    · refine ⟨_, ?_, ih place.next.next⟩
      simp [turn, turnInBlockComment, peek_front place, peek_second place,
        advanceTwiceInto_front place]
  | case4 depth rest ih =>
    apply LeadsFrom.turn
    · simp [goesRound, peek_front place]
    · refine ⟨_, ?_, ih place.next.next⟩
      simp [turn, turnInBlockComment, peek_front place, peek_second place,
        advanceTwiceInto_front place]
  | case5 depth c rest notOpening notClosing ih =>
    apply LeadsFrom.turn
    · simp [goesRound, peek_front place]
    · refine ⟨_, ?_, ih place.next⟩
      have opens : ¬ (c = '/' ∧ rest.head? = some '*') := by
        rintro ⟨rfl, star⟩
        rcases List.head?_eq_some_iff.mp star with ⟨more, rfl⟩
        exact notOpening more rfl rfl
      have closes : ¬ (c = '*' ∧ rest.head? = some '/') := by
        rintro ⟨rfl, slash⟩
        rcases List.head?_eq_some_iff.mp slash with ⟨more, rfl⟩
        exact notClosing more rfl rfl
      simp [turn, turnInBlockComment, peek_front place, peek_second place, opens, closes,
        advance_front place]

theorem nothing_hidden (bare : ∀ d more, c = '\\' → rest = d :: more → False) :
    (c = '\\' && rest.head?.isSome) = false := by
  cases rest with
  | nil => simp
  | cons d more =>
    have plain : c ≠ '\\' := fun backslash => bare d more backslash rfl
    simp [plain]

theorem turnInString_front (quote : Char) (place : p.IsBefore source (c :: rest)) :
    turnInString source quote ⟨loop, p, tokens⟩ =
      if c = '\\' && rest.head?.isSome then advance source ⟨loop, p.next c, tokens⟩
      else if c = quote then .ok ⟨.regions, p.next c, tokens⟩
      else .ok ⟨loop, p.next c, tokens⟩ := by
  simp only [turnInString, peek_front place, advance_front place, List.head?_cons,
    peek_front place.next]
  rfl

theorem leads_string (quote : Char) (place : p.IsBefore source rest) :
    Leads source ⟨.string quote, p, tokens⟩
      ⟨.regions, p.after (Lexeme.stringBody quote rest).1, tokens⟩ := by
  fun_induction Lexeme.stringBody quote rest generalizing p with
  | case1 =>
    apply LeadsFrom.leave
    · simp [goesRound, peek_front place]
    · exact ⟨_, rfl, .refl⟩
  | case2 c rest ih =>
    apply LeadsFrom.turn
    · simp [goesRound, peek_front place]
    · refine ⟨_, ?_, ih place.next.next⟩
      have hides := @turnInString_front source _ p '\\' (.string quote) tokens quote place
      exact hides.trans (advance_front place.next)
  | case3 rest bare =>
    apply LeadsFrom.turn
    · simp [goesRound, peek_front place]
    · refine ⟨⟨.regions, p.next quote, tokens⟩, ?_, .refl⟩
      simp only [turn, turnInString_front quote place, nothing_hidden bare, Bool.false_eq_true,
        if_false, if_true]
  | case4 c rest bare inner ih =>
    apply LeadsFrom.turn
    · simp [goesRound, peek_front place]
    · refine ⟨⟨.string quote, p.next c, tokens⟩, ?_, ih place.next⟩
      simp only [turn, turnInString_front quote place, nothing_hidden bare, Bool.false_eq_true,
        if_false, if_neg inner]

theorem leads_word (run : WordRun) (place : p.IsBefore source (text ++ rest))
    (isRun : IsRun isWordChar text rest)
    (left : LeadsFrom source (leave source ⟨.word run, p.after text, tokens⟩) last) :
    Leads source ⟨.word run, p, tokens⟩ last := by
  have through : Leads source ⟨.word run, p, tokens⟩ ⟨.word run, p.after text, tokens⟩ := by
    apply leads_run (.inr ⟨run, rfl⟩) _ place isRun.1
    intro p c rest place wordChar
    simpa only [goesRound, peek_front place, List.head?_cons, Option.any_some] using wordChar
  apply through.trans
  apply LeadsFrom.leave
  · rw [goesRound, peek_front place.after]
    exact isRun.any_head?
  · exact left

theorem leadsFrom_marked (run : WordRun) {more : Text}
    (place : p.IsBefore source (text ++ (c :: more ++ rest)))
    (isRun : IsRun isWordChar more rest)
    (left : LeadsFrom source
      (leave source ⟨.word run, p.after (text ++ c :: more), tokens⟩) last) :
    LeadsFrom source (advanceInto source (.word run) ⟨loop, p.after text, tokens⟩) last := by
  have further : p.after (text ++ c :: more) = ((p.after text).next c).after more := by
    rw [Position.after_append, Position.after_cons]
  rw [further] at left
  have behind := place.after
  exact ⟨_, advanceInto_front behind _, leads_word run behind.next isRun left⟩

def beyond (p : Position) (tokens : List Token) (lexeme : Lexeme) : Cursor :=
  ⟨.regions, p.after lexeme.text, tokens ++ Token.ofLexemes p [lexeme]⟩

variable {kind : NumberKind}

theorem leadsFrom_emit (place : p.IsBefore source (text ++ rest)) (kind : NumberKind) :
    LeadsFrom source (.ok (emit source kind p ⟨loop, p.after text, tokens⟩))
      (beyond p tokens ⟨.number kind, text⟩) := by
  have same : emit source kind p ⟨loop, p.after text, tokens⟩ =
      beyond p tokens ⟨.number kind, text⟩ := by
    rw [emit, slice_after place]
    rfl
  exact ⟨_, rfl, by rw [same]; exact .refl⟩

theorem any_head?_iff (p : Char → Bool) (text : Text) :
    text.head?.any p = true ↔ ∃ c more, p c = true ∧ text = c :: more := by
  cases text <;> simp

theorem beginsFraction_iff (place : p.IsBefore source rest) :
    beginsFraction source ⟨loop, p, tokens⟩ = true ↔ BeginsFraction rest := by
  cases rest with
  | nil => simp [beginsFraction, peek_front place, BeginsFraction]
  | cons c rest =>
    simp only [beginsFraction, peek_front place, peek_second place, BeginsFraction,
      Bool.and_eq_true, decide_eq_true_eq, any_head?_iff, List.head?_cons, Option.some.injEq,
      List.cons.injEq]
    grind

theorem beginsSignedExponent_iff (place : p.IsBefore source rest) :
    ((peek source ⟨loop, p, tokens⟩).any isSign &&
      (peek source ⟨loop, p, tokens⟩ 1).any isDigit) = true ↔ BeginsSignedExponent rest := by
  cases rest with
  | nil => simp [peek_front place, BeginsSignedExponent]
  | cons c rest =>
    simp only [peek_front place, peek_second place, BeginsSignedExponent,
      Bool.and_eq_true, any_head?_iff, List.head?_cons, Option.any_some,
      List.cons.injEq]
    grind

theorem leaveForExponent_eq (without : NumberKind) (place : p.IsBefore source (text ++ rest))
    (nonempty : text ≠ []) :
    leaveForExponent source p without ⟨loop, p.after text, tokens⟩ =
      if text.getLast?.any isExponentMark &&
          ((peek source ⟨loop, p.after text, tokens⟩).any isSign &&
            (peek source ⟨loop, p.after text, tokens⟩ 1).any isDigit) then
        advanceInto source (.word (.exponent p)) ⟨loop, p.after text, tokens⟩
      else .ok (emit source without p ⟨loop, p.after text, tokens⟩) := by
  rcases @lookBack_after source text rest p loop tokens place nonempty with ⟨c, last, read⟩
  rw [leaveForExponent, read, last, Option.any_some, ← Bool.and_assoc]

theorem leadsFrom_exponent {exponent : Text} (without : NumberKind)
    (place : p.IsBefore source (text ++ (exponent ++ rest))) (nonempty : text ≠ [])
    (ends : EndsInExponentMark text) (isExponent : IsSignedExponent exponent rest) :
    LeadsFrom source (leaveForExponent source p without ⟨loop, p.after text, tokens⟩)
      (beyond p tokens ⟨.number .float, text ++ exponent⟩) := by
  have begins := isExponent.beginsSignedExponent
  rcases isExponent with ⟨sign, digit, more, rfl, -, -, isRun⟩
  rw [leaveForExponent_eq without place nonempty, (endsInExponentMark_iff text).mpr ends,
    (beginsSignedExponent_iff place.after).mpr begins, Bool.and_true, if_pos rfl]
  apply leadsFrom_marked (.exponent p) place isRun
  rw [← List.append_assoc] at place
  exact leadsFrom_emit place .float

theorem leadsFrom_noExponent (without : NumberKind) (place : p.IsBefore source (text ++ rest))
    (nonempty : text ≠ []) (none : ¬ (EndsInExponentMark text ∧ BeginsSignedExponent rest)) :
    LeadsFrom source (leaveForExponent source p without ⟨loop, p.after text, tokens⟩)
      (beyond p tokens ⟨.number without, text⟩) := by
  rw [leaveForExponent_eq without place nonempty, if_neg]
  · exact leadsFrom_emit place without
  · rwa [Bool.and_eq_true, endsInExponentMark_iff, beginsSignedExponent_iff place.after]

theorem leadsFrom_fraction {fraction : Text} (run : WordRun)
    (place : p.IsBefore source (text ++ (fraction ++ rest))) (isFraction : IsFraction fraction rest)
    (left : LeadsFrom source
      (leave source ⟨.word run, p.after (text ++ fraction), tokens⟩) last) :
    LeadsFrom source (advanceInto source (.word run) ⟨loop, p.after text, tokens⟩) last := by
  rcases isFraction with ⟨digit, more, rfl, -, isRun⟩
  exact leadsFrom_marked run place isRun left

theorem leadsFrom_head {digit : Char} {more tail : Text} (isDigit' : isDigit digit = true)
    (place : p.IsBefore source (digit :: more ++ (tail ++ rest)))
    (numberEnd : NumberEnd (digit :: more) kind tail rest) :
    LeadsFrom source (leaveHead source p ⟨loop, p.after (digit :: more), tokens⟩)
      (beyond p tokens ⟨.number kind, digit :: more ++ tail⟩) := by
  have point := @beginsFraction_iff source (tail ++ rest) (p.after (digit :: more)) loop tokens
    place.after
  have whole : p.IsBefore source ((digit :: more ++ tail) ++ rest) := by
    rwa [List.append_assoc]
  have nonempty : digit :: more ≠ [] := List.cons_ne_nil digit more
  have reads := slice_after place
  -- each case is one branch in which the cursor leaves the head
  cases numberEnd with
  | marked mark noFraction =>
    rw [leaveHead, reads, if_pos ((hasMark_iff _).mp mark), if_neg (mt point.mp noFraction),
      List.append_nil]
    exact leadsFrom_emit place .integer
  | markedFraction mark isFraction =>
    rw [leaveHead, reads, if_pos ((hasMark_iff _).mp mark),
      if_pos (point.mpr (isFraction.beginsFraction rest))]
    exact leadsFrom_fraction _ place isFraction (leadsFrom_emit whole .integer)
  | fraction noMark isFraction noExponent =>
    rw [leaveHead, reads, if_neg (mt (hasMark_iff _).mpr noMark),
      if_pos (point.mpr (isFraction.beginsFraction rest))]
    apply leadsFrom_fraction _ place isFraction
    apply leadsFrom_noExponent .float whole (by simp)
    rwa [endsInExponentMark_append _ isFraction.ne_nil]
  | @fractionExponent fraction exponent _ noMark isFraction ends isExponent =>
    rw [List.append_assoc] at place point
    rw [leaveHead, reads, if_neg (mt (hasMark_iff _).mpr noMark),
      if_pos (point.mpr (isFraction.beginsFraction (exponent ++ rest)))]
    apply leadsFrom_fraction _ place isFraction
    rw [← List.append_assoc] at place ⊢
    apply leadsFrom_exponent .float place (by simp) _ isExponent
    rwa [endsInExponentMark_append _ isFraction.ne_nil]
  | exponent noMark noFraction hasExponent =>
    rw [leaveHead, reads, if_neg (mt (hasMark_iff _).mpr noMark), if_neg (mt point.mp noFraction),
      if_pos ((hasExponent_iff isDigit').mpr hasExponent), List.append_nil]
    exact leadsFrom_emit place .float
  | signedExponent noMark ends isExponent =>
    have noExponent := mt (hasExponent_iff isDigit').mp (ends.not_hasExponent isDigit')
    rw [leaveHead, reads, if_neg (mt (hasMark_iff _).mpr noMark),
      if_neg (mt point.mp isExponent.not_beginsFraction), if_neg noExponent,
      if_pos ((endsAtExponentMark_iff isDigit').mpr ends)]
    exact leadsFrom_exponent .integer place nonempty ends.endsInExponentMark isExponent
  | plain noMark noFraction noExponent noSignedExponent =>
    rw [leaveHead, reads, if_neg (mt (hasMark_iff _).mpr noMark), if_neg (mt point.mp noFraction),
      if_neg (mt (hasExponent_iff isDigit').mp noExponent), List.append_nil]
    split_ifs with found
    · have ends := (endsAtExponentMark_iff isDigit').mp found
      apply leadsFrom_noExponent .integer place nonempty
      rintro ⟨-, begins⟩
      exact noSignedExponent ⟨ends, begins⟩
    · exact leadsFrom_emit place .integer

theorem turn_front (place : p.IsBefore source (c :: rest)) :
    turn source ⟨.regions, p, tokens⟩ =
      if c = '/' && rest.head? = some '/' then .ok ⟨.lineComment, p, tokens⟩
      else if c = '/' && rest.head? = some '*' then
        advanceTwiceInto source (.blockComment 1) ⟨.regions, p, tokens⟩
      else if isQuote c then .ok ⟨.string c, p.next c, tokens⟩
      else if startsIdentifier c then .ok ⟨.word .identifier, p, tokens⟩
      else if isDigit c then .ok ⟨.word (.head p), p, tokens⟩
      else .ok ⟨.regions, p.next c, tokens⟩ := by
  simp only [turn, turnOverRegions, peek_front place, peek_second place, List.head?_cons,
    advanceInto_front place, advance_front place]
  rfl

theorem turn_of_ne_slash (place : p.IsBefore source (c :: rest)) (noSlash : c ≠ '/') :
    turn source ⟨.regions, p, tokens⟩ =
      if isQuote c then .ok ⟨.string c, p.next c, tokens⟩
      else if startsIdentifier c then .ok ⟨.word .identifier, p, tokens⟩
      else if isDigit c then .ok ⟨.word (.head p), p, tokens⟩
      else .ok ⟨.regions, p.next c, tokens⟩ := by
  simp [turn_front place, noSlash]

theorem beyond_of_skipped {lexeme : Lexeme} (skipped : lexeme.number? = none) :
    beyond p tokens lexeme = ⟨.regions, p.after lexeme.text, tokens⟩ := by
  have none : Token.ofLexemes p [lexeme] = [] := Token.ofLexemes_eq_nil p (by simpa using skipped)
  rw [beyond, none, List.append_nil]

/-- A cursor goes through each region to its end, and takes it along if it is a number. -/
theorem leads_region {lexeme : Lexeme} (region : lexeme.IsRegion rest)
    (place : p.IsBefore source (lexeme.text ++ rest)) :
    Leads source ⟨.regions, p, tokens⟩ (beyond p tokens lexeme) := by
  have begins : goesRound source ⟨.regions, p, tokens⟩ = true := by
    rcases List.exists_cons_of_ne_nil region.text_ne_nil with ⟨c, more, front⟩
    rw [front] at place
    simp [goesRound, peek_front place]
  rcases lexeme with ⟨kind, text⟩
  -- one turn of the loop over the regions, then the loop inside of the region to its end
  apply LeadsFrom.turn begins
  cases kind with
  | lineComment =>
    have isRun := IsLineComment.isRun region
    rcases region with ⟨content, rfl, -⟩
    rw [turn_front place, beyond_of_skipped rfl]
    exact ⟨_, rfl, leads_lineComment place isRun⟩
  | blockComment =>
    rcases blockComment_complete region with ⟨content, rfl, cut⟩
    have behind : ((p.next '/').next '*').IsBefore source (content ++ rest) := place.next.next
    have inside := @leads_blockComment source _ _ tokens 1 behind
    rw [cut] at inside
    rw [turn_front place, beyond_of_skipped rfl]
    exact ⟨_, advanceTwiceInto_front place _, inside⟩
  | string =>
    rcases string_complete region with ⟨quote, content, isQuote', rfl, cut⟩
    have behind : (p.next quote).IsBefore source (content ++ rest) := place.next
    have inside := @leads_string source _ _ tokens quote behind
    rw [cut] at inside
    rw [turn_of_ne_slash place (ne_slash_of_isQuote isQuote'), if_pos isQuote',
      beyond_of_skipped rfl]
    exact ⟨_, rfl, inside⟩
  | identifier =>
    rcases region with ⟨c, more, rfl, starts, isRun⟩
    have wordChar := isWordChar_of_startsIdentifier starts
    rw [turn_of_ne_slash place (ne_slash_of_isWordChar wordChar),
      if_neg (not_isQuote_of_isWordChar wordChar), if_pos starts, beyond_of_skipped rfl]
    exact ⟨_, rfl, leads_word .identifier place isRun ⟨_, rfl, .refl⟩⟩
  | number kind =>
    rcases region with ⟨digit, more, tail, rfl, isDigit', isRun, numberEnd⟩
    have wordChar := isWordChar_of_isDigit isDigit'
    have notStarts : ¬ startsIdentifier digit = true := by
      simp [not_startsIdentifier_of_isDigit isDigit']
    have split : p.IsBefore source (digit :: more ++ (tail ++ rest)) := by
      rwa [← List.append_assoc]
    rw [turn_of_ne_slash place (ne_slash_of_isWordChar wordChar),
      if_neg (not_isQuote_of_isWordChar wordChar), if_neg notStarts, if_pos isDigit']
    exact ⟨_, rfl, leads_word (.head p) split isRun (leadsFrom_head isDigit' split numberEnd)⟩
  | other =>
    rcases region with ⟨c, rfl, noQuote, noWord, noComment⟩
    rw [isWordChar_iff, not_or] at noWord
    -- the turn looks for a comment mark before anything else
    have noMark : ∀ mark, mark = '/' ∨ mark = '*' →
        ¬ (c = '/' && rest.head? = some mark) = true := by
      intro mark either begins
      simp only [Bool.and_eq_true, decide_eq_true_eq] at begins
      apply noComment
      rcases either with rfl | rfl
      · exact ⟨begins.1, .inl begins.2⟩
      · exact ⟨begins.1, .inr begins.2⟩
    have front : p.IsBefore source (c :: rest) := place
    have plain : turn source ⟨.regions, p, tokens⟩ = .ok ⟨.regions, p.next c, tokens⟩ := by
      rw [turn_front front, if_neg (noMark '/' (.inl rfl)), if_neg (noMark '*' (.inr rfl)),
        if_neg noQuote, if_neg noWord.2, if_neg noWord.1]
    rw [beyond_of_skipped rfl]
    exact ⟨_, plain, .refl⟩

theorem leads_lexemes {cut : List Lexeme} (isCut : IsCutInto rest cut)
    (place : p.IsBefore source rest) :
    Leads source ⟨.regions, p, tokens⟩
      ⟨.regions, p.after rest, tokens ++ Token.ofLexemes p cut⟩ := by
  induction isCut generalizing p tokens with
  | nil =>
    rw [Token.ofLexemes, List.append_nil]
    exact .refl
  | @cons lexeme rest more region isCut ih =>
    have first : Token.ofLexemes p (lexeme :: more) =
        Token.ofLexemes p [lexeme] ++ Token.ofLexemes (p.after lexeme.text) more := by
      simpa using Token.ofLexemes_append p [lexeme] more
    rw [first, ← List.append_assoc, Position.after_append]
    exact (leads_region region place).trans (ih place.after)

end Cursor
end ScriptLiterals
