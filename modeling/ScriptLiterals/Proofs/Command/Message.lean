import ScriptLiterals.Command.Run
import ScriptLiterals.Proofs.Source.Character
import ScriptLiterals.Proofs.Text.Quoted

/-!
What is said when a run cannot do its job stands on one line.

Main statement: `JobError.newline_not_mem_message`.
-/

namespace ScriptLiterals

theorem SystemError.newline_not_mem_message (e : SystemError) : '\n' ∉ e.message := by
  have front := List.not_mem_append (show '\n' ∉ "[Errno ".toList by decide)
    (newline_not_mem_ofNat e.number)
  exact List.not_mem_append (List.not_mem_append front (by decide)) e.oneLine

theorem FileError.newline_not_mem_message (e : FileError) : '\n' ∉ e.message := by
  have path := Text.newline_not_mem_quoted e.path.text
  unfold message
  split
  · exact List.not_mem_append (by decide) path
  · exact List.not_mem_append (by decide) path
  · exact List.not_mem_append (by decide) path
  · exact List.not_mem_append (by decide) path
  · decide
  · next error _ =>
    exact List.not_mem_append (List.not_mem_append error.newline_not_mem_message (by decide)) path
  · next error _ => exact error.newline_not_mem_message

theorem Text.Utf8Error.newline_not_mem_message (e : Text.Utf8Error) : '\n' ∉ e.message := by
  have reason : '\n' ∉ e.reason.message := by cases e.reason <;> decide
  have number := newline_not_mem_ofNat
  have byte : ∀ b, '\n' ∉ byteDigits b := by simp [byteDigits]
  unfold message
  split
  · next b _ =>
    have front := List.not_mem_append
      (show '\n' ∉ "'utf-8' codec can't decode byte 0x".toList by decide) (byte b)
    have middle := List.not_mem_append front (show '\n' ∉ " in position ".toList by decide)
    have placed := List.not_mem_append middle (number e.start)
    exact List.not_mem_append (List.not_mem_append placed (by decide)) reason
  · have front := List.not_mem_append
      (show '\n' ∉ "'utf-8' codec can't decode bytes in position ".toList by decide) (number e.start)
    have middle := List.not_mem_append front (show '\n' ∉ "-".toList by decide)
    have placed := List.not_mem_append middle (number (e.start + e.bytes.length - 1))
    exact List.not_mem_append (List.not_mem_append placed (by decide)) reason

namespace Toml

theorem Fault.newline_not_mem_message (fault : Fault) : '\n' ∉ fault.message := by
  have quoted := Text.newline_not_mem_quoted
  have group := Text.newline_not_mem_quotedGroup
  cases fault with
  | expected delimiter => exact List.not_mem_append (by decide) (quoted _)
  | invalidCharacter c => exact List.not_mem_append (by decide) (quoted _)
  | illegalCharacter c => exact List.not_mem_append (by decide) (quoted _)
  | declaredTwice key =>
    exact List.not_mem_append (List.not_mem_append (by decide) (group key)) (by decide)
  | redefinesNamespace key => exact List.not_mem_append (by decide) (group key)
  | immutableNamespace key => exact List.not_mem_append (by decide) (group key)
  | duplicateInlineKey name => exact List.not_mem_append (by decide) (quoted _)
  | tooManyDigits count =>
    exact List.not_mem_append (List.not_mem_append (by decide) (newline_not_mem_ofNat count))
      (by decide)
  | _ => decide

theorem Place.newline_not_mem_message (place : Place) : '\n' ∉ place.message := by
  cases place with
  | «at» line column =>
    have front := List.not_mem_append (show '\n' ∉ "line ".toList by decide)
      (newline_not_mem_ofNat line)
    exact List.not_mem_append (List.not_mem_append front (by decide)) (newline_not_mem_ofNat column)
  | endOfDocument => decide

theorem Error.newline_not_mem_message (e : Error) : '\n' ∉ e.message := by
  have fault := e.fault.newline_not_mem_message
  unfold message
  split
  · exact fault
  · exact fault
  · have front := List.not_mem_append fault (show '\n' ∉ " (at ".toList by decide)
    exact List.not_mem_append (List.not_mem_append front e.place.newline_not_mem_message) (by decide)

end Toml

theorem SettingsError.newline_not_mem_message (e : SettingsError) : '\n' ∉ e.message := by
  cases e with
  | width => decide
  | separators given => exact List.not_mem_append (by decide) (Text.newline_not_mem_quoted given)

namespace Command

theorem JobError.newline_not_mem_message (e : JobError) : '\n' ∉ e.message := by
  cases e with
  | nothingToDo => decide
  | watchNeedsInput => decide
  | file e => exact e.newline_not_mem_message
  | undecodable e => exact e.newline_not_mem_message
  | document e => exact e.newline_not_mem_message
  | settings e => exact e.newline_not_mem_message

end Command
end ScriptLiterals
