import ScriptLiterals.Proofs.Literal.Acceptance
import ScriptLiterals.Proofs.Source.Character

/-!
Where in a literal its error is: at a character of it, behind its last character if it has no digits,
or at the literal as a whole if its value does not fit.

Main statement: `isFaultOf_of_readLiteral`.
-/

namespace ScriptLiterals

/-- What can be wrong with a text, each time at the offset at which it shows. -/
inductive LiteralError.IsFaultOf (text : Text) : LiteralError → Prop
  | character {offset : Nat} {c : Char} (here : text[offset]? = some c) (radix : Radix)
      {wording : Option Text} (worded : ∀ message ∈ wording, message = leadingZeroMessage text) :
      IsFaultOf text ⟨text, offset, .malformed radix (some [c]) wording⟩
  | noDigits (radix : Radix) : IsFaultOf text (.noDigits text radix)
  | overflow (offset : Nat) (radix : Radix) (width : Int) :
      IsFaultOf text (.overflow text offset radix width)

def LiteralFault.quoting (text : Text) : LiteralFault → LiteralFault
  | .malformed radix character wording =>
    .malformed radix character (wording.map fun _ => leadingZeroMessage text)
  | fault => fault

variable {text region before behind : Text} {radix : Radix} {options : Options} {c : Char}
  {e : LiteralError}

theorem Marked.getElem? (marked : Marked text radix region) (offset : Nat) :
    text[(Radix.detect text).2 + offset]? = region[offset]? := by
  obtain ⟨-, rfl⟩ := (Radix.marked_iff ..).mp marked
  exact List.getElem?_drop.symm

theorem firstDigit?_eq_some {start offset : Nat} {seen : Text}
    (first : firstDigit? start seen = some (offset, c)) :
    ∃ index, offset = start + index ∧ seen[index]? = some c := by
  induction seen generalizing start with
  | nil => simp [firstDigit?] at first
  | cons d seen ih =>
    by_cases separator : d = '_'
    · rw [firstDigit?, if_pos separator] at first
      obtain ⟨index, rfl, here⟩ := ih first
      exact ⟨index + 1, by omega, by simpa using here⟩
    · rw [firstDigit?, if_neg separator] at first
      obtain ⟨rfl, rfl⟩ := Prod.mk.inj (Option.some.inj first)
      exact ⟨0, rfl, rfl⟩

theorem StopsWith.isFaultOf (marked : Marked text radix region)
    (split : region = before ++ c :: behind)
    (stops : StopsWith text radix options (Radix.detect text).2 before behind c e) :
    e.IsFaultOf text := by
  have here : text[(Radix.detect text).2 + before.length]? = some c := by
    rw [marked.getElem?, split]
    simp
  cases stops with
  | separator => exact .character here radix (by simp)
  | character => exact .character here radix (by simp)
  | leadingZero digit decimal refused first =>
    obtain ⟨index, rfl, zero⟩ := firstDigit?_eq_some first
    refine .character ?_ .decimal (by simp)
    rw [marked.getElem?, split, List.getElem?_append_left, zero]
    exact (List.getElem?_eq_some_iff.mp zero).1
  | overflow => exact .overflow _ radix _

theorem Radix.newline_not_mem_name (radix : Radix) : '\n' ∉ radix.name := by
  cases radix <;> decide

theorem newline_not_mem_malformedMessage {character : Option Text} (oneLine : '\n' ∉ text)
    (visible : ∀ c ∈ character, '\n' ∉ c) : '\n' ∉ malformedMessage text radix character := by
  have named := radix.newline_not_mem_name
  cases character with
  | none =>
    apply List.not_mem_append
    · exact List.not_mem_append (List.not_mem_append named (by decide)) oneLine
    · decide
  | some character =>
    rw [malformedMessage]
    split
    · apply List.not_mem_append
      · exact List.not_mem_append (List.not_mem_append
          (List.not_mem_append (by decide) named) (by decide)) oneLine
      · decide
    · apply List.not_mem_append
      · exact List.not_mem_append (List.not_mem_append (List.not_mem_append (List.not_mem_append
          (List.not_mem_append (by decide) (visible character rfl)) (by decide)) named)
          (by decide)) oneLine
      · decide

theorem LiteralError.IsFaultOf.newline_not_mem_message (isFault : e.IsFaultOf text)
    (oneLine : '\n' ∉ text) : '\n' ∉ e.message := by
  cases isFault with
  | @character offset c here radix wording worded =>
    have visible : '\n' ≠ c := by
      rintro rfl
      exact oneLine (List.mem_of_getElem? here)
    cases wording with
    | none =>
      change '\n' ∉ malformedMessage text radix (some [c])
      exact newline_not_mem_malformedMessage oneLine (by simpa using visible)
    | some wording =>
      rw [message, worded wording rfl]
      exact List.not_mem_append (List.not_mem_append (by decide) oneLine) (by decide)
  | noDigits radix =>
    change '\n' ∉ malformedMessage text radix none
    exact newline_not_mem_malformedMessage oneLine (by simp)
  | overflow offset radix width =>
    apply List.not_mem_append
    · exact List.not_mem_append (List.not_mem_append (List.not_mem_append (by decide) oneLine)
        (by decide)) (newline_not_mem_ofInt width)
    · decide

theorem LiteralError.isFaultOf_of_readLiteral (refused : readLiteral text options = .error e) :
    e.IsFaultOf text := by
  obtain ⟨radix, region, marked⟩ := Radix.exists_marked text
  rcases region_of_readLiteral_eq_error marked refused with
    ⟨rfl, -⟩ | ⟨before, c, behind, split, -, stops⟩
  · exact .noDigits radix
  · exact stops.isFaultOf marked split

end ScriptLiterals
