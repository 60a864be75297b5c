import Mathlib.Data.List.Basic
import ScriptLiterals.Proofs.Literal.Acceptance

/-!
Reading a literal in the width that it must fit. No number on the way is negative or greater than the
greatest integer of the width, so a machine whose integers have just this width reads the same.

Main statements: `appendDigitResults_bounds` for one step, `Reading.Visits.isInRange` for a whole run,
and `accumulation_stays_in_width`.
-/

namespace ScriptLiterals

def appendDigitResults (value base digit limit : Int) : List Int :=
  limit.fdiv base ::
    if value > limit.fdiv base then []
    else
      value * base :: (limit - digit) ::
        if value * base > limit - digit then [] else [value * base + digit]

/-- The bounded step on a machine that has to store each number before it can use it. -/
def appendDigitIn? (store : Int → Int) (value base digit limit : Int) : Option Int :=
  if value > store (limit.fdiv base) then none
  else if store (value * base) > store (limit - digit) then none
  else some (store (store (value * base) + digit))

section Step

variable {store : Int → Int} {value base digit limit : Int}

theorem appendDigitIn?_eq
    (stored : ∀ n ∈ appendDigitResults value base digit limit, store n = n) :
    appendDigitIn? store value base digit limit = appendDigit? value base digit limit := by
  unfold appendDigitResults at stored
  rcases List.forall_mem_cons.mp stored with ⟨quotient, stored⟩
  rw [appendDigitIn?, appendDigit?, quotient]
  by_cases exceeds : value > limit.fdiv base
  · rw [if_pos exceeds, if_pos exceeds]
  · rw [if_neg exceeds] at stored
    rcases List.forall_mem_cons.mp stored with ⟨product, stored⟩
    rcases List.forall_mem_cons.mp stored with ⟨difference, stored⟩
    rw [if_neg exceeds, if_neg exceeds, product, difference]
    by_cases exceeds' : value * base > limit - digit
    · rw [if_pos exceeds', if_pos exceeds']
    · rw [if_neg exceeds'] at stored
      rw [if_neg exceeds', if_neg exceeds', stored _ (List.mem_singleton_self _)]

theorem mem_appendDigitResults {result : Int}
    (appended : appendDigit? value base digit limit = some result) :
    result ∈ appendDigitResults value base digit limit := by
  unfold appendDigit? at appended
  unfold appendDigitResults
  split_ifs at appended with exceeds exceeds'
  rw [← Option.some.inj appended, if_neg exceeds, if_neg exceeds']
  simp

theorem appendDigitResults_bounds (inRange : 0 ≤ value ∧ value ≤ limit) (positive : 0 < base)
    (digit' : 0 ≤ digit ∧ digit ≤ limit) :
    ∀ n ∈ appendDigitResults value base digit limit, 0 ≤ n ∧ n ≤ limit := by
  have nonneg : 0 ≤ limit := le_trans inRange.1 inRange.2
  have quotient : 0 ≤ limit.fdiv base ∧ limit.fdiv base ≤ limit := by
    rw [Int.fdiv_eq_ediv_of_nonneg _ positive.le]
    exact ⟨Int.ediv_nonneg nonneg positive.le, Int.ediv_le_self _ nonneg⟩
  rw [appendDigitResults]
  refine List.forall_mem_cons.mpr ⟨quotient, ?_⟩
  by_cases exceeds : value > limit.fdiv base
  · simp [if_pos exceeds]
  rw [if_neg exceeds]
  have product : 0 ≤ value * base ∧ value * base ≤ limit := by
    rw [gt_iff_lt, lt_fdiv_iff positive] at exceeds
    exact ⟨mul_nonneg inRange.1 positive.le, not_lt.mp exceeds⟩
  have difference : 0 ≤ limit - digit ∧ limit - digit ≤ limit := by omega
  refine List.forall_mem_cons.mpr ⟨product, List.forall_mem_cons.mpr ⟨difference, ?_⟩⟩
  by_cases exceeds' : value * base > limit - digit
  · simp [if_pos exceeds']
  rw [if_neg exceeds']
  have sum : 0 ≤ value * base + digit ∧ value * base + digit ≤ limit := by omega
  simpa using sum

end Step

theorem Radix.digit?_bounds {radix : Radix} {c : Char} {digit : Int}
    (found : radix.digit? c = some digit) : 0 ≤ digit ∧ digit < radix.base := by
  rcases (radix.digit?_eq_some_iff c digit).mp found with ⟨isDigit, rfl⟩
  have rank : radix.rank c < radix.alphabet.length := List.idxOf_lt_length_iff.mpr isDigit
  rw [radix.base_eq]
  omega

theorem Radix.base_bounds (radix : Radix) (width : Width) :
    0 < radix.base ∧ radix.base ≤ width.maximum := by
  cases radix <;> cases width <;> decide

namespace Reading

def IsInRange (reading : Reading) (width : Width) : Prop :=
  0 ≤ reading.value ∧ reading.value ≤ width.maximum

/-- The records with which reading a literal comes to a character or to the end, each with the offset
and the text that is still to be taken. -/
inductive Visits (text : Text) (options : Options) : Reading → Nat → Text → Prop
  | start : Visits text options {} (Radix.detect text).2 (text.drop (Radix.detect text).2)
  | next {reading behind : Reading} {offset : Nat} {c : Char} {rest : Text}
      (visits : Visits text options reading offset (c :: rest))
      (taken : reading.take text (Radix.detect text).1 options offset c rest.isEmpty = .ok behind) :
      Visits text options behind (offset + 1) rest

variable {text rest : Text} {radix : Radix} {options : Options} {reading behind : Reading}
  {offset : Nat} {c : Char} {last : Bool} {store : Int → Int}

theorem value_of_take (taken : reading.take text radix options offset c last = .ok behind) :
    behind.value = reading.value ∨ ∃ digit, radix.digit? c = some digit ∧
      appendDigit? reading.value radix.base digit options.width.maximum = some behind.value := by
  unfold take at taken
  split at taken
  · split at taken
    · contradiction
    · rw [← Except.ok.inj taken]
      exact .inl rfl
  · split at taken
    · contradiction
    · next digit found =>
      unfold takeDigit at taken
      split at taken
      · contradiction
      · split at taken
        · contradiction
        · next value appended =>
          rw [← Except.ok.inj taken]
          exact .inr ⟨digit, found, appended⟩

theorem IsInRange.results (inRange : reading.IsInRange options.width) {digit : Int}
    (found : radix.digit? c = some digit) :
    ∀ n ∈ appendDigitResults reading.value radix.base digit options.width.maximum,
      0 ≤ n ∧ n ≤ options.width.maximum := by
  have base := radix.base_bounds options.width
  have digit' := Radix.digit?_bounds found
  exact appendDigitResults_bounds inRange base.1 (by omega)

theorem IsInRange.take (inRange : reading.IsInRange options.width)
    (taken : reading.take text radix options offset c last = .ok behind) :
    behind.IsInRange options.width := by
  rcases value_of_take taken with same | ⟨digit, found, appended⟩
  · rwa [IsInRange, same]
  · exact inRange.results found _ (mem_appendDigitResults appended)

theorem isInRange_start (width : Width) : IsInRange {} width :=
  ⟨le_rfl, width.maximum_nonneg⟩

theorem Visits.isInRange (visits : Visits text options reading offset rest) :
    reading.IsInRange options.width := by
  induction visits with
  | start => exact isInRange_start options.width
  | next _ taken inRange => exact inRange.take taken

def takeDigitIn (store : Int → Int) (text : Text) (radix : Radix) (options : Options)
    (reading : Reading) (offset : Nat) (c : Char) (digit : Int) : Except LiteralError Reading :=
  match reading.leadingZero? radix options with
  | some leading => .error (.leadingZero text leading)
  | none =>
    match appendDigitIn? store reading.value (store radix.base) (store digit)
        (store options.width.maximum) with
    | none => .error (.overflow text offset radix options.width.bits)
    | some value => .ok ⟨value, reading.first.or (some (offset, c)), false⟩

def takeIn (store : Int → Int) (text : Text) (radix : Radix) (options : Options) (reading : Reading)
    (offset : Nat) (c : Char) (last : Bool) : Except LiteralError Reading :=
  if c = '_' then
    if reading.refusesSeparator options.separators last then
      .error (.badCharacter text offset radix c)
    else .ok { reading with afterSeparator := true }
  else
    match radix.digit? c with
    | none => .error (.badCharacter text offset radix c)
    | some digit => reading.takeDigitIn store text radix options offset c digit

def takeAllIn (store : Int → Int) (text : Text) (radix : Radix) (options : Options) :
    Reading → Nat → Text → Except LiteralError Reading
  | reading, _, [] => .ok reading
  | reading, offset, c :: rest =>
    match reading.takeIn store text radix options offset c rest.isEmpty with
    | .error e => .error e
    | .ok reading => takeAllIn store text radix options reading (offset + 1) rest

/-- The machine stores the numbers in range as they are. Of others nothing is said. -/
def Stores (store : Int → Int) (width : Width) : Prop :=
  ∀ n, 0 ≤ n → n ≤ width.maximum → store n = n

theorem takeDigitIn_eq (stores : Stores store options.width)
    (inRange : reading.IsInRange options.width) {digit : Int}
    (found : radix.digit? c = some digit) :
    reading.takeDigitIn store text radix options offset c digit =
      reading.takeDigit text radix options offset c digit := by
  have base := radix.base_bounds options.width
  have digit' := Radix.digit?_bounds found
  have step : appendDigitIn? store reading.value (store radix.base) (store digit)
      (store options.width.maximum) =
        appendDigit? reading.value radix.base digit options.width.maximum := by
    rw [stores radix.base base.1.le base.2, stores digit digit'.1 (by omega),
      stores _ options.width.maximum_nonneg le_rfl]
    apply appendDigitIn?_eq
    intro n member
    have bounds := inRange.results found n member
    exact stores n bounds.1 bounds.2
  unfold takeDigitIn takeDigit
  cases reading.leadingZero? radix options with
  | some leading => rfl
  | none =>
    cases appended : appendDigit? reading.value radix.base digit options.width.maximum with
    | none => simp only [step, appended]
    | some value => simp only [step, appended]

theorem takeIn_eq (stores : Stores store options.width)
    (inRange : reading.IsInRange options.width) :
    reading.takeIn store text radix options offset c last =
      reading.take text radix options offset c last := by
  rw [takeIn, take]
  cases found : radix.digit? c with
  | none => rfl
  | some digit =>
    simp only [takeDigitIn_eq stores inRange found]

theorem takeAllIn_eq (stores : Stores store options.width)
    (inRange : reading.IsInRange options.width) :
    takeAllIn store text radix options reading offset rest =
      takeAll text radix options reading offset rest := by
  induction rest generalizing reading offset with
  | nil => rfl
  | cons c rest ih =>
    rw [takeAllIn, takeAll, takeIn_eq stores inRange]
    cases taken : reading.take text radix options offset c rest.isEmpty with
    | error e => rfl
    | ok behind => exact ih (inRange.take taken)

end Reading

def readLiteralIn (store : Int → Int) (text : Text) (options : Options := {}) :
    Except LiteralError Int :=
  let (radix, start) := Radix.detect text
  match Reading.takeAllIn store text radix options { value := store 0 } start (text.drop start) with
  | .error e => .error e
  | .ok reading =>
    match reading.first with
    | none => .error (.noDigits text radix)
    | some _ => .ok reading.value

theorem readLiteralIn_eq {store : Int → Int} {options : Options}
    (stores : Reading.Stores store options.width) (text : Text) :
    readLiteralIn store text options = readLiteral text options := by
  have zero : store 0 = 0 := stores 0 le_rfl options.width.maximum_nonneg
  have start := Reading.isInRange_start options.width
  unfold readLiteralIn readLiteral
  simp only [zero]
  cases taken : Reading.takeAll text (Radix.detect text).1 options {} (Radix.detect text).2
      (text.drop (Radix.detect text).2) with
  | error e => simp only [Reading.takeAllIn_eq stores start, taken]
  | ok reading =>
    cases found : reading.first with
    | none => simp only [Reading.takeAllIn_eq stores start, taken, found]
    | some _ => simp only [Reading.takeAllIn_eq stores start, taken, found]

def Width.wrapped (width : Width) (n : Int) : Int := (BitVec.ofInt width.bits n).toInt

theorem Width.stores_wrapped (width : Width) : Reading.Stores width.wrapped width := by
  intro n nonneg bounded
  have half : width.maximum < ((2 ^ width.bits : Nat) + 1 : Int) / 2 := by cases width <;> decide
  rw [wrapped, BitVec.toInt_ofInt]
  apply Int.bmod_eq_of_le
  · exact le_trans (Int.neg_nonpos_of_nonneg (by positivity)) nonneg
  · exact lt_of_le_of_lt bounded half

/-- While a literal is read, the value and every number that a step computes are in range. Words of the
width that wrap around therefore give the same value or error. -/
theorem accumulation_stays_in_width (text : Text) (options : Options) :
    (∀ reading offset rest, Reading.Visits text options reading offset rest →
      (0 ≤ reading.value ∧ reading.value ≤ options.width.maximum) ∧
        ∀ c more digit, rest = c :: more → (Radix.detect text).1.digit? c = some digit →
          ∀ n ∈ appendDigitResults reading.value (Radix.detect text).1.base digit
            options.width.maximum, 0 ≤ n ∧ n ≤ options.width.maximum) ∧
      readLiteralIn options.width.wrapped text options = readLiteral text options := by
  constructor
  · intro reading offset rest visits
    have inRange := visits.isInRange
    refine ⟨inRange, ?_⟩
    intro c more digit _ found
    exact inRange.results found
  · exact readLiteralIn_eq options.width.stores_wrapped text

end ScriptLiterals
