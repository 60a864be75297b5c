import ScriptLiterals.Command.Job
import ScriptLiterals.Conversion
import ScriptLiterals.Source.Listing

/-!
Reports. The literals that were given come first, in their order, then those of the script in source
order: one line in the report for each that has a value, one error for each that has none.
-/

namespace ScriptLiterals.Command

structure Script where
  name : Text
  text : Text
  deriving DecidableEq, Repr

structure Report where
  text : Text
  errors : List Text
  deriving DecidableEq, Repr

namespace Report

def literalLine (text : Text) (value : Int) : Text := text ++ '\t' :: Text.ofInt value ++ ['\n']

def tokenLine (token : Token) (value : Int) : Text :=
  Text.ofInt token.span.start.line ++ ':' :: Text.ofInt token.span.start.column ++ '\t' ::
    token.text ++ '\t' :: Text.ofInt value ++ ['\n']

def literalError (e : LiteralError) : Text := "error: ".toList ++ e.message

def missingLiteral : Text := ['[', ']']

/-- The text and the value of a literal that was given. Without a text it has no digits. -/
def readGiven (options : Options) : Option Text → Except LiteralError (Text × Int)
  | none => .error ⟨missingLiteral, 0, .malformed .decimal none none⟩
  | some text => (readLiteral text options).map (text, ·)

def ofLiterals (options : Options) (literals : List (Option Text)) : Report where
  text := literals.flatMap fun literal =>
    match readGiven options literal with
    | .ok (text, value) => literalLine text value
    | .error _ => []
  errors := literals.filterMap fun literal =>
    match readGiven options literal with
    | .ok _ => none
    | .error e => some (literalError e)

def ofScript (options : Options) (script : Script) : Report :=
  let conversion := Conversion.ofSource script.text options
  ⟨conversion.values.flatMap fun (token, value) => tokenLine token value,
    conversion.errors.map (·.render script.name)⟩

def append (first second : Report) : Report :=
  ⟨first.text ++ second.text, first.errors ++ second.errors⟩

def errorLines (report : Report) : Text := report.errors.flatMap (· ++ ['\n'])

end Report

def Job.report (job : Job) (script : Option Script) : Report :=
  let given := Report.ofLiterals job.options job.literals
  match script with
  | none => given
  | some script => given.append (Report.ofScript job.options script)

def Job.listing (job : Job) (script : Option Script) : Text :=
  match job.debug, script with
  | true, some script => listTokens (Token.ofSource script.text)
  | _, _ => []

end ScriptLiterals.Command
