import Mathlib.Data.Nat.Digits.Defs
import Mathlib.Tactic
import ScriptLiterals.Literal.Read

/-!
The grammar of integer literals, said without reading one from left to right: a mark for the radix,
digits with separators, and the positional value of the digits.

Main statements: a radix is detected from its mark (`marked_iff`), and a character is a digit exactly
if it is in the alphabet of the radix (`digit?_eq_some_iff`).
-/

namespace ScriptLiterals
namespace Radix

def letters : Radix → Text
  | binary => ['b', 'B']
  | octal => ['o', 'O']
  | decimal => []
  | hexadecimal => ['x', 'X']

def alphabet : Radix → Text
  | binary => "01".toList
  | octal => "01234567".toList
  | decimal => "0123456789".toList
  | hexadecimal => "0123456789abcdef".toList

def IsDigit (radix : Radix) (c : Char) : Prop := c.toLower ∈ radix.alphabet

instance (radix : Radix) (c : Char) : Decidable (radix.IsDigit c) :=
  inferInstanceAs (Decidable (c.toLower ∈ radix.alphabet))

def rank (radix : Radix) (c : Char) : Nat := radix.alphabet.idxOf c.toLower

def value (radix : Radix) (digits : Text) : Nat :=
  Nat.ofDigits radix.alphabet.length (digits.reverse.map radix.rank)

/-- Groups of digits with one separator between neighbours. -/
def IsGrouped (radix : Radix) (region : Text) : Prop :=
  ∃ groups : List Text, groups ≠ [] ∧ (∀ group ∈ groups, group ≠ [] ∧ ∀ c ∈ group, radix.IsDigit c) ∧
    region = Text.joined ['_'] groups

end Radix

/-- A text with its radix and the part behind the mark. Without a mark the text is decimal and all of
it counts. -/
inductive Marked : Text → Radix → Text → Prop
  | mark {radix : Radix} {c : Char} (region : Text) (letter : c ∈ radix.letters) :
      Marked ('0' :: c :: region) radix region
  | plain {text : Text}
      (unmarked : ∀ (radix : Radix), ∀ c ∈ radix.letters, ∀ region, text ≠ '0' :: c :: region) :
      Marked text .decimal text

namespace Text

def withoutSeparators (region : Text) : Text := region.filter (· ≠ '_')

end Text

structure IsDigitRegion (radix : Radix) (options : Options) (region : Text) : Prop where
  characters : ∀ c ∈ region, c = '_' ∨ radix.IsDigit c
  hasDigit : region.withoutSeparators ≠ []
  grouped : options.separators = .strict → radix.IsGrouped region
  noLeadingZero : options.leadingZeros = false → radix = .decimal →
    ∀ c more, region.withoutSeparators ≠ '0' :: c :: more

/-- The literals that options allow, with their values. -/
def IsLiteral (text : Text) (options : Options) (value : Int) : Prop :=
  ∃ radix region, Marked text radix region ∧ IsDigitRegion radix options region ∧
    value = radix.value region.withoutSeparators ∧ value ≤ 2 ^ (options.width.bits - 1) - 1

namespace Radix

theorem ofMark?_eq_some_iff (radix : Radix) (c : Char) :
    ofMark? c = some radix ↔ c ∈ radix.letters := by
  constructor
  · intro marked
    unfold ofMark? at marked
    split_ifs at marked with hexadecimal octal binary
    · obtain rfl := Option.some.inj marked
      simpa [letters] using hexadecimal
    · obtain rfl := Option.some.inj marked
      simpa [letters] using octal
    · obtain rfl := Option.some.inj marked
      simpa [letters] using binary
  · intro letter
    cases radix <;> simp only [letters, List.mem_cons, List.not_mem_nil, or_false] at letter <;>
      rcases letter with rfl | rfl <;> rfl

theorem marked_detect (text : Text) :
    Marked text (detect text).1 (text.drop (detect text).2) := by
  unfold detect
  split
  · next c region =>
    split
    · next radix marked => exact .mark region ((ofMark?_eq_some_iff radix c).mp marked)
    · next unmarked =>
      refine .plain ?_
      intro radix d letter region' same
      obtain ⟨rfl, -⟩ : c = d ∧ region = region' := by simpa using same
      rw [(ofMark?_eq_some_iff radix c).mpr letter] at unmarked
      contradiction
  · next unmarked =>
    exact .plain fun radix c letter region same => unmarked c region same

theorem detect_mark {radix : Radix} {c : Char} (letter : c ∈ radix.letters) (region : Text) :
    detect ('0' :: c :: region) = (radix, 2) := by
  simp [detect, (ofMark?_eq_some_iff radix c).mpr letter]

theorem detect_plain {text : Text}
    (unmarked : ∀ (radix : Radix), ∀ c ∈ radix.letters, ∀ region, text ≠ '0' :: c :: region) :
    detect text = (decimal, 0) := by
  unfold detect
  split
  · next c region =>
    split
    · next radix marked =>
      exact absurd rfl (unmarked radix c ((ofMark?_eq_some_iff radix c).mp marked) region)
    · rfl
  · rfl

theorem exists_marked (text : Text) : ∃ radix region, Marked text radix region :=
  ⟨_, _, marked_detect text⟩

theorem marked_iff (text region : Text) (radix : Radix) :
    Marked text radix region ↔ (detect text).1 = radix ∧ text.drop (detect text).2 = region := by
  constructor
  · intro marked
    cases marked with
    | mark region letter =>
      rw [detect_mark letter]
      exact ⟨rfl, rfl⟩
    | plain unmarked =>
      rw [detect_plain unmarked]
      exact ⟨rfl, rfl⟩
  · rintro ⟨rfl, rfl⟩
    exact marked_detect text

theorem not_isDigit_of_le {radix : Radix} {c : Char} (high : 128 ≤ c.toNat) : ¬ radix.IsDigit c := by
  have upper : ¬ (c.val ≥ 'A'.val ∧ c.val ≤ 'Z'.val) := by
    rintro ⟨-, le⟩
    have : c.toNat ≤ 90 := le
    omega
  have same : c.toLower = c := dif_neg upper
  have low : (radix.alphabet.all fun d => d.toNat < 128) = true := by cases radix <;> decide
  intro digit
  have := of_decide_eq_true (List.all_eq_true.mp low c (same ▸ digit))
  omega

theorem digitValue?_of_le {c : Char} (high : 128 ≤ c.toNat) : digitValue? c = none := by
  have above : ∀ d : Char, d.toNat < 128 → ¬ c ≤ d := by
    intro d low le
    have : c.toNat ≤ d.toNat := le
    omega
  simp [digitValue?, above '9' (by decide), above 'f' (by decide), above 'F' (by decide)]

theorem digit?_eq (radix : Radix) (c : Char) :
    radix.digit? c = if radix.IsDigit c then some (radix.rank c : Int) else none := by
  by_cases ascii : c.toNat < 128
  · have table : ∀ n : Fin 128, radix.digit? (Char.ofNat n) =
        if radix.IsDigit (Char.ofNat n) then some (radix.rank (Char.ofNat n) : Int) else none := by
      cases radix <;> decide +kernel
    simpa using table ⟨c.toNat, ascii⟩
  · have high : 128 ≤ c.toNat := by omega
    rw [if_neg (not_isDigit_of_le high), digit?, digitValue?_of_le high, Option.filter_none]

theorem digit?_eq_some_iff (radix : Radix) (c : Char) (d : Int) :
    radix.digit? c = some d ↔ radix.IsDigit c ∧ d = radix.rank c := by
  rw [digit?_eq]
  split_ifs with digit <;> simp [digit, eq_comm]

theorem not_isDigit_separator (radix : Radix) : ¬ radix.IsDigit '_' := by
  cases radix <;> decide

theorem IsDigit.ne_separator {radix : Radix} {c : Char} (digit : radix.IsDigit c) : c ≠ '_' := by
  rintro rfl
  exact radix.not_isDigit_separator digit

theorem base_eq (radix : Radix) : radix.base = radix.alphabet.length := by
  cases radix <;> rfl

theorem value_append_digit (radix : Radix) (digits : Text) (c : Char) :
    radix.value (digits ++ [c]) = radix.value digits * radix.alphabet.length + radix.rank c := by
  simp only [value, List.reverse_append, List.reverse_singleton, List.singleton_append,
    List.map_cons, Nat.ofDigits_cons]
  ring

end Radix
end ScriptLiterals
