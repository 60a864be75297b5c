import ScriptLiterals.Text.Basic

/-!
The options of the command line and their names.
-/

namespace ScriptLiterals.Command

inductive Switch
  | help
  | strictSeparators
  | noLeadingZeros
  | watch
  | debug
  deriving DecidableEq, Repr

inductive Field
  | literal
  | output
  | width
  | config
  deriving DecidableEq, Repr

inductive Flag
  | switch (switch : Switch)
  | field (field : Field)
  deriving DecidableEq, Repr

namespace Flag

def all : List Flag :=
  [switch .help, field .literal, field .output, field .width, switch .strictSeparators,
    switch .noLeadingZeros, field .config, switch .watch, switch .debug]

def short? : Flag → Option Char
  | switch .help => some 'h'
  | field .literal => some 'l'
  | field .output => some 'o'
  | _ => none

def long : Flag → Text
  | switch .help => "--help".toList
  | switch .strictSeparators => "--strict-separators".toList
  | switch .noLeadingZeros => "--no-leading-zeros".toList
  | switch .watch => "--watch".toList
  | switch .debug => "--debug".toList
  | field .literal => "--literal".toList
  | field .output => "--output".toList
  | field .width => "--width".toList
  | field .config => "--config".toList

def display (flag : Flag) : Text :=
  match flag.short? with
  | some c => '-' :: c :: '/' :: flag.long
  | none => flag.long

def ofShort? (c : Char) : Option Flag := all.find? (·.short? = some c)

def ofLong? (name : Text) : Option Flag := all.find? (·.long = name)

end Flag
end ScriptLiterals.Command
