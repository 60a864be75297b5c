import Mathlib.Tactic.SplitIfs
import ScriptLiterals.Literal.Options

/-!
Which settings are valid: those with one of the four widths and the name of a policy. The width is
looked at first.

Main statements: `check_eq_ok_iff` and `check_eq_error_iff`.
-/

namespace ScriptLiterals

theorem Width.ofBits?_eq_some_iff (bits : Int) (width : Width) :
    ofBits? bits = some width ↔ (width.bits : Int) = bits := by
  unfold ofBits?
  constructor
  · intro found
    split_ifs at found
    all_goals
      cases found
      simp only [Width.bits]
      omega
  · rintro rfl
    cases width <;> rfl

theorem Width.ofBits?_eq_none_iff (bits : Int) : ofBits? bits = none ↔ bits ∉ [8, 16, 32, 64] := by
  unfold ofBits?
  split_ifs with w8 w16 w32 w64
  · simp [w8]
  · simp [w16]
  · simp [w32]
  · simp [w64]
  · simp [w8, w16, w32, w64]

theorem SeparatorPolicy.ofName?_eq_some_iff (name : Text) (policy : SeparatorPolicy) :
    ofName? name = some policy ↔ policy.name = name := by
  unfold ofName?
  constructor
  · intro found
    split_ifs at found with lenient strict
    · cases found
      exact lenient.symm
    · cases found
      exact strict.symm
  · rintro rfl
    cases policy <;> rfl

theorem SeparatorPolicy.ofName?_eq_none_iff (name : Text) :
    ofName? name = none ↔ name ∉ ["lenient".toList, "strict".toList] := by
  change _ ↔ name ∉ [SeparatorPolicy.lenient.name, SeparatorPolicy.strict.name]
  unfold ofName?
  split_ifs with lenient strict
  · simp [lenient]
  · simp [strict]
  · simp [lenient, strict]

attribute [ext] Settings

namespace Settings

theorem check_eq_ok_iff (settings : Settings) (options : Options) :
    settings.check = .ok options ↔
      (options.width.bits : Int) = settings.width ∧ options.separators.name = settings.separators ∧
        options.leadingZeros = settings.leadingZeros := by
  rw [← Width.ofBits?_eq_some_iff, ← SeparatorPolicy.ofName?_eq_some_iff, check, Width.ofBits,
    SeparatorPolicy.ofName]
  cases Width.ofBits? settings.width with
  | none => simp [bind, Except.bind]
  | some width =>
    cases SeparatorPolicy.ofName? settings.separators with
    | none => simp [bind, Except.bind]
    | some policy =>
      rcases options with ⟨_, _, _⟩
      simp [bind, Except.bind, pure, Except.pure, eq_comm]

theorem check_eq_error_iff (settings : Settings) (e : SettingsError) :
    settings.check = .error e ↔
      (settings.width ∉ [8, 16, 32, 64] ∧ e = .width) ∨
        (settings.width ∈ [8, 16, 32, 64] ∧
          settings.separators ∉ ["lenient".toList, "strict".toList] ∧
            e = .separators settings.separators) := by
  rw [← Width.ofBits?_eq_none_iff, ← SeparatorPolicy.ofName?_eq_none_iff,
    ← Decidable.not_not (p := settings.width ∈ _), ← Width.ofBits?_eq_none_iff, check, Width.ofBits,
    SeparatorPolicy.ofName]
  cases Width.ofBits? settings.width with
  | none => simp [bind, Except.bind, eq_comm]
  | some width =>
    cases SeparatorPolicy.ofName? settings.separators with
    | none => simp [bind, Except.bind, eq_comm]
    | some policy => simp [bind, Except.bind, pure, Except.pure]

end Settings
end ScriptLiterals
