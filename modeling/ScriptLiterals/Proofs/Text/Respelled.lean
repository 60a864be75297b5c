import Mathlib.Tactic
import ScriptLiterals.Text.Basic

/-!
Texts that differ in how single characters are spelled: a piece of the one stands for each character
of the other.

Main statements: a respelled text falls apart where the text does (`exists_append`), and it is the
same where no character has another spelling (`eq_of_kept`).
-/

namespace ScriptLiterals

/-- A text with an allowed piece in the place of each character. -/
inductive Respelled (allowed : Char → Text → Prop) : Text → Text → Prop
  | nil : Respelled allowed [] []
  | cons {c : Char} {piece text respelled : Text} (spelled : allowed c piece)
      (more : Respelled allowed text respelled) :
      Respelled allowed (c :: text) (piece ++ respelled)

namespace Respelled

variable {allowed allowed' : Char → Text → Prop} {text front back respelled front' back' : Text}

theorem mono (spelling : Respelled allowed text respelled)
    (weaker : ∀ c ∈ text, ∀ piece, allowed c piece → allowed' c piece) :
    Respelled allowed' text respelled := by
  induction spelling with
  | nil => exact .nil
  | cons spelled more ih =>
    refine .cons (weaker _ List.mem_cons_self _ spelled) (ih ?_)
    intro c member
    exact weaker c (List.mem_cons_of_mem _ member)

theorem append (first : Respelled allowed front front') (second : Respelled allowed back back') :
    Respelled allowed (front ++ back) (front' ++ back') := by
  induction first with
  | nil => exact second
  | cons spelled more ih =>
    rw [List.append_assoc]
    exact .cons spelled ih

theorem exists_append (spelling : Respelled allowed (front ++ back) respelled) :
    ∃ front' back', respelled = front' ++ back' ∧ Respelled allowed front front' ∧
      Respelled allowed back back' := by
  induction front generalizing respelled with
  | nil => exact ⟨[], respelled, rfl, .nil, spelling⟩
  | cons c front ih =>
    cases spelling with
    | @cons _ piece _ respelled spelled more =>
      obtain ⟨front', back', rfl, first, second⟩ := ih more
      exact ⟨piece ++ front', back', (List.append_assoc ..).symm, .cons spelled first, second⟩

theorem eq_of_kept (spelling : Respelled allowed text respelled)
    (kept : ∀ c ∈ text, ∀ piece, allowed c piece → piece = [c]) : respelled = text := by
  induction spelling with
  | nil => rfl
  | cons spelled more ih =>
    obtain rfl := kept _ List.mem_cons_self _ spelled
    rw [ih fun c member => kept c (List.mem_cons_of_mem _ member)]
    rfl

theorem eq_nil (spelling : Respelled allowed [] respelled) : respelled = [] := by
  cases spelling
  rfl

theorem exists_cons {c : Char} (spelling : Respelled allowed (c :: text) respelled) :
    ∃ piece more, respelled = piece ++ more ∧ allowed c piece ∧ Respelled allowed text more := by
  cases spelling with
  | cons spelled more => exact ⟨_, _, rfl, spelled, more⟩

theorem of_getElem? (length_eq : respelled.length = text.length)
    (spelled : ∀ (index : Nat) c d, text[index]? = some c → respelled[index]? = some d → allowed c [d]) :
    Respelled allowed text respelled := by
  induction text generalizing respelled with
  | nil =>
    obtain rfl := List.length_eq_zero_iff.mp length_eq
    exact .nil
  | cons c text ih =>
    obtain ⟨d, respelled, rfl⟩ := List.exists_cons_of_length_eq_add_one length_eq
    change Respelled allowed (c :: text) ([d] ++ respelled)
    refine .cons (spelled 0 c d rfl rfl) (ih (by simpa using length_eq) ?_)
    intro index
    exact spelled (index + 1)

end Respelled

/-- A text in which idle characters stand in the place of idle ones, at least one for each, and all
others are kept. -/
abbrev Reworded (idle : Char → Prop) : Text → Text → Prop :=
  Respelled fun c piece => piece = [c] ∨ idle c ∧ piece ≠ [] ∧ ∀ d ∈ piece, idle d

theorem Reworded.exists_cons_of_not {idle : Char → Prop} {c : Char} {text reworded : Text}
    (words : Reworded idle (c :: text) reworded) (busy : ¬ idle c) :
    ∃ more, reworded = c :: more ∧ Reworded idle text more := by
  obtain ⟨piece, more, rfl, rfl | ⟨isIdle, -⟩, others⟩ := words.exists_cons
  · exact ⟨more, rfl, others⟩
  · exact absurd isIdle busy

theorem Reworded.exists_concat {idle : Char → Prop} {c : Char} {text reworded : Text}
    (words : Reworded idle (text ++ [c]) reworded) (busy : ¬ idle c) :
    ∃ front, reworded = front ++ [c] ∧ Reworded idle text front := by
  obtain ⟨front, back, rfl, first, second⟩ := words.exists_append
  obtain ⟨more, rfl, none⟩ := Reworded.exists_cons_of_not second busy
  obtain rfl := none.eq_nil
  exact ⟨front, rfl, first⟩

end ScriptLiterals
