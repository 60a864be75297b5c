import ScriptLiterals.Radix
import ScriptLiterals.Text.Quoted

/-!
How strictly literals are read, and how wide the integers are that they must fit. Settings come in
as plain values and are checked as a whole: the width first, then the separator policy.
-/

namespace ScriptLiterals

inductive Width
  | w8
  | w16
  | w32
  | w64
  deriving DecidableEq, Repr

namespace Width

def bits : Width → Nat
  | w8 => 8
  | w16 => 16
  | w32 => 32
  | w64 => 64

def ofBits? (bits : Int) : Option Width :=
  if bits = 8 then some w8
  else if bits = 16 then some w16
  else if bits = 32 then some w32
  else if bits = 64 then some w64
  else none

def minimum (width : Width) : Int := -(Nat.pow 2 (width.bits - 1) : Int)

/-- The greatest signed integer of a width. It is also the greatest value of a literal, since
literals have no sign. -/
def maximum (width : Width) : Int := (Nat.pow 2 (width.bits - 1) : Int) - 1

end Width

/-- Where a separator may stand: anywhere among the digits, or only between two of them. -/
inductive SeparatorPolicy
  | lenient
  | strict
  deriving DecidableEq, Repr

namespace SeparatorPolicy

def name : SeparatorPolicy → Text
  | lenient => "lenient".toList
  | strict => "strict".toList

def ofName? (name : Text) : Option SeparatorPolicy :=
  if name = lenient.name then some lenient
  else if name = strict.name then some strict
  else none

end SeparatorPolicy

structure Options where
  width : Width := .w64
  separators : SeparatorPolicy := .lenient
  leadingZeros : Bool := true
  deriving DecidableEq, Repr

structure Settings where
  width : Int := 64
  separators : Text := SeparatorPolicy.lenient.name
  leadingZeros : Bool := true
  deriving DecidableEq, Repr

inductive SettingsError
  | width
  | separators (given : Text)
  deriving DecidableEq, Repr

def SettingsError.message : SettingsError → Text
  | width => "width must be one of 8, 16, 32, 64".toList
  | separators given =>
    "separators must be one of lenient, strict, got ".toList ++ Text.quoted given

def Width.ofBits (bits : Int) : Except SettingsError Width :=
  match Width.ofBits? bits with
  | some width => .ok width
  | none => .error .width

def SeparatorPolicy.ofName (name : Text) : Except SettingsError SeparatorPolicy :=
  match SeparatorPolicy.ofName? name with
  | some policy => .ok policy
  | none => .error (.separators name)

def Settings.check (settings : Settings) : Except SettingsError Options := do
  let width ← Width.ofBits settings.width
  let separators ← SeparatorPolicy.ofName settings.separators
  return ⟨width, separators, settings.leadingZeros⟩

end ScriptLiterals
