import Mathlib.Order.Bounds.Basic
import ScriptLiterals.Proofs.Literal.Acceptance

/-!
The leftmost fault of a literal. Reading stops at the first character behind which the digits are no
longer clean, and that character and the digits before it decide the error.

Main statement: `readLiteral_reports_first_fault`.
-/

namespace ScriptLiterals

abbrev literalRadix (text : Text) : Radix := (Radix.detect text).1

abbrev digitsStart (text : Text) : Nat := (Radix.detect text).2

def digitsUpTo (text : Text) (stop : Nat) : Text := (text.take stop).drop (digitsStart text)

def IsCleanUpTo (text : Text) (options : Options) (stop : Nat) : Prop :=
  IsClean (literalRadix text) options (digitsUpTo text stop) (text.drop stop)

/-- The offsets of the characters behind which the digits of a text are not clean. -/
def faults (text : Text) (options : Options) : Set Nat :=
  {offset | digitsStart text ≤ offset ∧ offset < text.length ∧
    ¬ IsCleanUpTo text options (offset + 1)}

/-- The only digit before an offset is the zero at `leading`, and no digit may follow it. -/
structure FollowsLeadingZero (text : Text) (options : Options) (offset leading : Nat) : Prop where
  refused : options.leadingZeros = false
  decimal : literalRadix text = .decimal
  first : firstDigit? (digitsStart text) (digitsUpTo text offset) = some (leading, '0')
  alone : (digitsUpTo text offset).withoutSeparators = ['0']

section Parts

variable {text before behind rest : Text} {c : Char} {options : Options} {e : LiteralError}

theorem digitsUpTo_start_add (text : Text) (count : Nat) :
    digitsUpTo text (digitsStart text + count) = (text.drop (digitsStart text)).take count := by
  rw [digitsUpTo, List.drop_take, Nat.add_sub_cancel_left]

theorem isCleanUpTo_start_add (text : Text) (options : Options) (count : Nat) :
    IsCleanUpTo text options (digitsStart text + count) ↔
      IsClean (literalRadix text) options ((text.drop (digitsStart text)).take count)
        ((text.drop (digitsStart text)).drop count) := by
  rw [IsCleanUpTo, digitsUpTo_start_add, List.drop_drop]

theorem isCleanUpTo_of_isClean {stop : Nat}
    (split : text.drop (digitsStart text) = before ++ rest)
    (clean : IsClean (literalRadix text) options before rest) (first : digitsStart text ≤ stop)
    (last : stop ≤ digitsStart text + before.length) : IsCleanUpTo text options stop := by
  have inside : stop - digitsStart text ≤ before.length := by omega
  rw [← Nat.add_sub_cancel' first, isCleanUpTo_start_add, split,
    List.take_append_of_le_length inside, List.drop_append_of_le_length inside]
  apply IsClean.of_append
  rwa [List.take_append_drop]

theorem faults_eq_empty
    (clean : IsClean (literalRadix text) options (text.drop (digitsStart text)) []) :
    faults text options = ∅ := by
  apply Set.eq_empty_of_forall_notMem
  intro offset fault
  rcases fault with ⟨first, short, faulty⟩
  apply faulty
  apply isCleanUpTo_of_isClean (List.append_nil _).symm clean
  · omega
  · rw [List.length_drop]
    omega

theorem isLeast_faults (split : text.drop (digitsStart text) = before ++ c :: behind)
    (clean : IsClean (literalRadix text) options before (c :: behind))
    (faulty : ¬ IsClean (literalRadix text) options (before ++ [c]) behind) :
    IsLeast (faults text options) (digitsStart text + before.length) := by
  have length := congrArg List.length split
  rw [List.length_drop, List.length_append, List.length_cons] at length
  constructor
  · refine ⟨Nat.le_add_right _ _, by omega, ?_⟩
    have split' : text.drop (digitsStart text) = (before ++ [c]) ++ behind := by simp [split]
    have whole : before.length + 1 = (before ++ [c]).length := by simp
    rwa [Nat.add_assoc, isCleanUpTo_start_add, split', whole, List.take_left, List.drop_left]
  · intro offset fault
    rcases fault with ⟨first, short, notClean⟩
    by_contra earlier
    apply notClean
    apply isCleanUpTo_of_isClean split clean
    · omega
    · omega

theorem digitsUpTo_of_split (split : text.drop (digitsStart text) = before ++ rest) :
    digitsUpTo text (digitsStart text + before.length) = before := by
  rw [digitsUpTo_start_add, split, List.take_left]

theorem FollowsLeadingZero.of_firstDigit? {leading : Nat}
    (split : text.drop (digitsStart text) = before ++ rest)
    (clean : IsClean (literalRadix text) options before rest)
    (refused : options.leadingZeros = false) (decimal : literalRadix text = .decimal)
    (first : firstDigit? (digitsStart text) before = some (leading, '0')) :
    FollowsLeadingZero text options (digitsStart text + before.length) leading := by
  have digits := digitsUpTo_of_split split
  refine ⟨refused, decimal, ?_, ?_⟩
  · rw [digits, first]
  · rw [digits]
    exact clean.eq_zero_of_firstDigit? refused decimal first

theorem StopsWith.error_eq (split : text.drop (digitsStart text) = before ++ c :: behind)
    (clean : IsClean (literalRadix text) options before (c :: behind))
    (stops : StopsWith text (literalRadix text) options (digitsStart text) before behind c e) :
    (¬ (literalRadix text).IsDigit c →
      e = .badCharacter text (digitsStart text + before.length) (literalRadix text) c) ∧
    (∀ leading, (literalRadix text).IsDigit c →
      FollowsLeadingZero text options (digitsStart text + before.length) leading →
      e = .leadingZero text leading) ∧
    ((literalRadix text).IsDigit c →
      (∀ leading, ¬ FollowsLeadingZero text options (digitsStart text + before.length) leading) →
      e = .overflow text (digitsStart text + before.length) (literalRadix text)
        options.width.bits) := by
  have digits := digitsUpTo_of_split split
  -- a separator is no digit, so the first part speaks of it, and the others of digits alone
  cases stops with
  | separator strict misplaced =>
    have noDigit := (literalRadix text).not_isDigit_separator
    exact ⟨fun _ => rfl, fun _ digit => absurd digit noDigit, fun digit => absurd digit noDigit⟩
  | character regular noDigit =>
    exact ⟨fun _ => rfl, fun _ digit => absurd digit noDigit, fun digit => absurd digit noDigit⟩
  | @leadingZero _ offset digit decimal refused first =>
    refine ⟨fun noDigit => absurd digit noDigit, ?_, ?_⟩
    · intro leading _ follows
      have same := follows.first
      rw [digits, first] at same
      rw [(Prod.mk.inj (Option.some.inj same)).1]
    · intro _ unled
      have follows := FollowsLeadingZero.of_firstDigit? split clean refused decimal first
      exact absurd follows (unled offset)
  | overflow digit allowed exceeds =>
    refine ⟨fun noDigit => absurd digit noDigit, ?_, fun _ _ => rfl⟩
    intro leading _ follows
    have first := follows.first
    rw [digits] at first
    exact absurd first (allowed follows.refused follows.decimal leading)

theorem StopsWith.unique {e' : LiteralError}
    (split : text.drop (digitsStart text) = before ++ c :: behind)
    (clean : IsClean (literalRadix text) options before (c :: behind))
    (stops : StopsWith text (literalRadix text) options (digitsStart text) before behind c e)
    (stops' : StopsWith text (literalRadix text) options (digitsStart text) before behind c e') :
    e = e' := by
  rcases stops.error_eq split clean with ⟨character, leadingZero, overflow⟩
  rcases stops'.error_eq split clean with ⟨character', leadingZero', overflow'⟩
  by_cases digit : (literalRadix text).IsDigit c
  · by_cases led : ∃ leading,
        FollowsLeadingZero text options (digitsStart text + before.length) leading
    · have ⟨leading, follows⟩ := led
      rw [leadingZero leading digit follows, leadingZero' leading digit follows]
    · have unled := not_exists.mp led
      rw [overflow digit unled, overflow' digit unled]
  · rw [character digit, character' digit]

theorem readLiteral_of_isClean {radix : Radix} {start : Nat} {region : Text}
    (detected : Radix.detect text = (radix, start)) (split : text.drop start = region)
    (clean : IsClean radix options region []) :
    (region.withoutSeparators ≠ [] →
      readLiteral text options = .ok (radix.value region.withoutSeparators)) ∧
    (region.withoutSeparators = [] → readLiteral text options = .error (.noDigits text radix)) := by
  have marked : Marked text radix region := by
    rw [Radix.marked_iff, detected]
    exact ⟨rfl, split⟩
  rcases readLiteral_cases text options marked with
    ⟨read, -, hasDigit⟩ | ⟨read, -, noDigit⟩ | ⟨before, c, behind, e, parts, -, -, stops⟩
  · exact ⟨fun _ => read, fun none => absurd none hasDigit⟩
  · exact ⟨fun some => absurd noDigit some, fun _ => read⟩
  · rw [parts] at clean
    exact absurd clean stops.not_isClean_whole

theorem readLiteral_of_stopsWith {radix : Radix} {start : Nat}
    (detected : Radix.detect text = (radix, start)) (split : text.drop start = before ++ c :: behind)
    (clean : IsClean radix options before (c :: behind))
    (stops : StopsWith text radix options start before behind c e) :
    readLiteral text options = .error e := by
  obtain rfl : literalRadix text = radix := congrArg Prod.fst detected
  obtain rfl : digitsStart text = start := congrArg Prod.snd detected
  have faulty : ¬ IsClean (literalRadix text) options (text.drop (digitsStart text)) [] := by
    rw [split]
    exact stops.not_isClean_whole
  rcases readLiteral_cases text options (Radix.marked_detect text) with
    ⟨-, whole, -⟩ | ⟨-, whole, -⟩ | ⟨before', c', behind', e', split', clean', read, stops'⟩
  · exact absurd whole faulty
  · exact absurd whole faulty
  · have least := isLeast_faults split clean stops.not_isClean
    have offset := least.unique (isLeast_faults split' clean' stops'.not_isClean)
    have length : before.length = before'.length := Nat.add_left_cancel offset
    obtain ⟨rfl, same⟩ := List.append_inj (split.symm.trans split') length
    obtain ⟨rfl, rfl⟩ := List.cons.inj same
    rw [read, stops.unique split clean stops']

end Parts

/-- A literal is reported at the leftmost offset behind which its digits are not clean. A character
there that is no digit, or is a separator out of place, is named; a second digit behind a leading zero
is reported at the zero; any other digit leaves the width. Without such an offset the literal has no
digits or a value. -/
theorem readLiteral_reports_first_fault (text : Text) (options : Options) :
    (∀ offset, IsLeast (faults text options) offset → ∃ c, text[offset]? = some c ∧
      (¬ (literalRadix text).IsDigit c →
        readLiteral text options = .error (.badCharacter text offset (literalRadix text) c)) ∧
      (∀ leading, (literalRadix text).IsDigit c →
        FollowsLeadingZero text options offset leading →
        readLiteral text options = .error (.leadingZero text leading)) ∧
      ((literalRadix text).IsDigit c →
        (∀ leading, ¬ FollowsLeadingZero text options offset leading) →
        readLiteral text options =
          .error (.overflow text offset (literalRadix text) options.width.bits))) ∧
    (faults text options = ∅ →
      ((digitsUpTo text text.length).withoutSeparators = [] →
        readLiteral text options = .error (.noDigits text (literalRadix text))) ∧
      ((digitsUpTo text text.length).withoutSeparators ≠ [] →
        readLiteral text options =
          .ok ((literalRadix text).value (digitsUpTo text text.length).withoutSeparators))) := by
  have region : digitsUpTo text text.length = text.drop (digitsStart text) := by
    rw [digitsUpTo, List.take_length]
  rw [region]
  rcases readLiteral_cases text options (Radix.marked_detect text) with
    ⟨read, clean, hasDigit⟩ | ⟨read, clean, noDigit⟩ |
      ⟨before, c, behind, e, split, clean, read, stops⟩
  · have none := faults_eq_empty clean
    rw [none]
    refine ⟨fun offset least => absurd least.1 (Set.notMem_empty offset), fun _ => ⟨?_, ?_⟩⟩
    · intro noDigit
      exact absurd noDigit hasDigit
    · intro _
      exact read
  · have none := faults_eq_empty clean
    rw [none]
    refine ⟨fun offset least => absurd least.1 (Set.notMem_empty offset), fun _ => ⟨?_, ?_⟩⟩
    · intro _
      exact read
    · intro hasDigit
      exact absurd noDigit hasDigit
  -- reading stops at `c`, and nothing before it is a fault
  · have least := isLeast_faults split clean stops.not_isClean
    have here : text[digitsStart text + before.length]? = some c := by
      rw [← List.getElem?_drop, split]
      simp
    rcases stops.error_eq split clean with ⟨character, leadingZero, overflow⟩
    constructor
    · intro offset first
      have same := first.unique least
      subst same
      rw [read]
      refine ⟨c, here, ?_, ?_, ?_⟩
      · intro noDigit
        rw [character noDigit]
      · intro leading digit follows
        rw [leadingZero leading digit follows]
      · intro digit unled
        rw [overflow digit unled]
    · intro none
      have fault := least.1
      rw [none] at fault
      exact absurd fault (Set.notMem_empty _)

example : readLiteral "0_7".toList ⟨.w64, .lenient, false⟩ = .error (.leadingZero "0_7".toList 0) ∧
    digitsUpTo "0_7".toList 2 = "0_".toList := by
  decide

end ScriptLiterals
