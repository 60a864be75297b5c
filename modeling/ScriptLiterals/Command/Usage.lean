import ScriptLiterals.Command.Flag
import ScriptLiterals.Text.Quoted

/-!
What the command line says about itself: how it is used, and why arguments are refused.
-/

namespace ScriptLiterals.Command

def programName : Text := "numlit".toList

def textOfLines (lines : List String) : Text := lines.flatMap fun line => line.toList ++ ['\n']

def usage : Text :=
  textOfLines [
    "usage: numlit [-h] [-l TEXT] [-o OUTPUT] [--width BITS] [--strict-separators]",
    "              [--no-leading-zeros] [--config FILE] [--watch] [--debug]",
    "              [input]"]

def help : Text :=
  usage ++ textOfLines [
    "",
    "Convert and check integer literals in scripts",
    "",
    "positional arguments:",
    "  input                 Script file to check ('-' for stdin)",
    "",
    "options:",
    "  -h, --help            show this help message and exit",
    "  -l TEXT, --literal TEXT",
    "                        Literal to convert (repeatable)",
    "  -o OUTPUT, --output OUTPUT",
    "                        Output file (default: stdout)",
    "  --width BITS          Target integer width: 8, 16, 32 or 64 (default: 64)",
    "  --strict-separators   Only accept '_' between two digits",
    "  --no-leading-zeros    Reject decimal literals such as 007",
    "  --config FILE         Config file (default: auto-discover numlit.toml)",
    "  --watch               Watch for changes and recheck",
    "  --debug               Dump scanned tokens to stderr"]

inductive ArgumentError
  | ambiguous (word : Text) (names : List Text)
  | expectedValue (field : Field)
  | ignoredValue (switch : Switch) (value : Text)
  | invalidInteger (field : Field) (value : Text)
  | unrecognized (words : List Text)
  deriving DecidableEq, Repr

namespace ArgumentError

def about (flag : Flag) (message : Text) : Text :=
  "argument ".toList ++ flag.display ++ ": ".toList ++ message

def message : ArgumentError → Text
  | ambiguous word names =>
    "ambiguous option: ".toList ++ word ++ " could match ".toList ++ Text.joined ", ".toList names
  | expectedValue field => about (.field field) "expected one argument".toList
  | ignoredValue switch value =>
    about (.switch switch) ("ignored explicit argument ".toList ++ Text.quoted value)
  | invalidInteger field value =>
    about (.field field) ("invalid int value: ".toList ++ Text.quoted value)
  | unrecognized words => "unrecognized arguments: ".toList ++ Text.joined [' '] words

def report (e : ArgumentError) : Text :=
  usage ++ programName ++ ": error: ".toList ++ e.message ++ ['\n']

end ArgumentError
end ScriptLiterals.Command
