import Mathlib
import ScriptLiterals.Proofs.Source.Character
import ScriptLiterals.Radix

/-!
The case of ASCII letters. Two texts differ in case alone if they are the same in lower case.

Main statements: `lowered_recased`, and for each class of characters that it holds a capital exactly
if it holds the small letter.
-/

namespace ScriptLiterals

namespace Text

def lowered (text : Text) : Text := text.map Char.toLower

def recased (chosen : Nat → Bool) (text : Text) : Text :=
  text.mapIdx fun offset c =>
    if chosen offset then if c.isUpper then c.toLower else c.toUpper else c

@[simp]
theorem lowered_nil : lowered [] = [] := rfl

@[simp]
theorem lowered_cons (c : Char) (text : Text) : lowered (c :: text) = c.toLower :: lowered text := rfl

@[simp]
theorem lowered_append (first second : Text) :
    lowered (first ++ second) = lowered first ++ lowered second :=
  List.map_append

@[simp]
theorem length_lowered (text : Text) : (lowered text).length = text.length := List.length_map _

theorem lowered_recased (chosen : Nat → Bool) (text : Text) :
    lowered (recased chosen text) = lowered text := by
  apply List.ext_getElem
  · simp [recased]
  · intro offset inside inside'
    simp only [lowered, recased, List.getElem_map, List.getElem_mapIdx]
    split_ifs
    · exact Char.toLower_toLower_eq_toLower _
    · exact Char.toLower_toUpper_eq_toLower _
    · rfl

end Text

def capitals : Text := "ABCDEFGHIJKLMNOPQRSTUVWXYZ".toList

theorem mem_capitals {c : Char} (upper : c.isUpper = true) : c ∈ capitals := by
  have codes : 65 ≤ c.toNat ∧ c.toNat ≤ 90 := of_decide_eq_true upper
  have table : ∀ n : Fin 26, Char.ofNat (65 + n) ∈ capitals := by decide
  have place := table ⟨c.toNat - 65, by omega⟩
  simp only [Nat.add_sub_cancel' codes.1] at place
  rwa [Char.ofNat_toNat] at place

/-- What treats each capital as its small letter does not depend on case. -/
theorem apply_toLower {α : Type} [DecidableEq α] (f : Char → α)
    (alike : (capitals.all fun c => f c.toLower = f c) = true) (c : Char) : f c.toLower = f c := by
  by_cases upper : c.isUpper = true
  · exact of_decide_eq_true (List.all_eq_true.mp alike c (mem_capitals upper))
  · rw [Char.toLower_eq_of_not_isUpper upper]

@[simp]
theorem isDigit_toLower (c : Char) : isDigit c.toLower = isDigit c :=
  apply_toLower isDigit (by decide +kernel) c

@[simp]
theorem startsIdentifier_toLower (c : Char) : startsIdentifier c.toLower = startsIdentifier c :=
  apply_toLower startsIdentifier (by decide +kernel) c

@[simp]
theorem isWordChar_toLower (c : Char) : isWordChar c.toLower = isWordChar c := by
  simp [isWordChar]

@[simp]
theorem isQuote_toLower (c : Char) : isQuote c.toLower = isQuote c :=
  apply_toLower isQuote (by decide +kernel) c

@[simp]
theorem isExponentMark_toLower (c : Char) : isExponentMark c.toLower = isExponentMark c :=
  apply_toLower isExponentMark (by decide +kernel) c

@[simp]
theorem isSign_toLower (c : Char) : isSign c.toLower = isSign c :=
  apply_toLower isSign (by decide +kernel) c

@[simp]
theorem isDecimalChar_toLower (c : Char) : isDecimalChar c.toLower = isDecimalChar c :=
  apply_toLower isDecimalChar (by decide +kernel) c

@[simp]
theorem ofMark?_toLower (c : Char) : Radix.ofMark? c.toLower = Radix.ofMark? c :=
  apply_toLower Radix.ofMark? (by decide +kernel) c

@[simp]
theorem digit?_toLower (radix : Radix) (c : Char) : radix.digit? c.toLower = radix.digit? c := by
  rw [Radix.digit?, apply_toLower digitValue? (by decide +kernel), Radix.digit?]

@[simp]
theorem toLower_eq_iff {d : Char} (plain : d.isAlpha = false) (c : Char) : c.toLower = d ↔ c = d := by
  have small : ∀ e : Char, e.isAlpha = false → e.toLower = e := by
    intro e noLetter
    apply Char.toLower_eq_of_not_isUpper
    simp_all [Char.isAlpha]
  constructor
  · intro same
    have noLetter : c.isAlpha = false := by
      rw [← Char.isAlpha_toLower_eq_isAlpha, same, plain]
    rw [← small c noLetter, same]
  · intro same
    rw [same, small d plain]

theorem Text.exists_cons_of_lowered {d : Char} (plain : d.isAlpha = false) {text tail : Text}
    (same : text.lowered = d :: tail) : ∃ more, text = d :: more ∧ tail = lowered more := by
  cases text with
  | nil => contradiction
  | cons c more =>
    rcases List.cons.inj same with ⟨first, behind⟩
    have letter := (toLower_eq_iff plain c).mp first
    exact ⟨more, by rw [letter], behind.symm⟩

theorem isAlpha_of_isQuote {quote : Char} (mark : isQuote quote = true) : quote.isAlpha = false := by
  simp only [isQuote, Bool.or_eq_true, decide_eq_true_eq] at mark
  rcases mark with (rfl | rfl) | rfl <;> decide

end ScriptLiterals
