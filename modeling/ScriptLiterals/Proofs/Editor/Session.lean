import ScriptLiterals.Editor
import ScriptLiterals.Proofs.Command.Once
import ScriptLiterals.Proofs.Conversion.Returns
import ScriptLiterals.Proofs.Text.Utf8

/-!
What an editor shows and what the command prints. Each event is answered with the errors of its
document's new text, whatever happened before, and these are the errors that the command prints for a
file with the same text.

Main statement: `session_agrees_with_command`.
-/

namespace ScriptLiterals

namespace Editor

def diagnosticsOf (text : Text) : List Diagnostic :=
  (Conversion.ofSource text).errors.map Diagnostic.ofError

namespace Workspace

theorem documents_returnsLast : documents.ReturnsLast := by
  intro store uri text
  simp [documents]

variable {Store : Type} {workspace : Workspace Store}

theorem run_eq (returnsLast : workspace.ReturnsLast) (store : Store) (events : List Event) :
    workspace.run store events = events.map fun event => [⟨event.uri, diagnosticsOf event.text⟩] := by
  induction events generalizing store with
  | nil => rfl
  | cons event events ih =>
    rw [run, ih, List.map_cons, handle, notification, returnsLast, diagnosticsOf]

end Workspace

/-- An error as the command prints it says what a diagnostic says: the same message, and the line and
the column, counted from one, at which the diagnostic starts. The diagnostic ends further on in the
same line. -/
structure Diagnostic.IsPrinted (name : Text) (diagnostic : Diagnostic) (printed : Text) : Prop where
  printed_eq : ∃ (line column : Int) (indent behind : Text),
    printed = "error: ".toList ++ diagnostic.message ++ '\n' ::
      (indent ++ "--> ".toList ++ name ++ ':' :: (Text.ofInt line ++ ':' :: (Text.ofInt column ++
        '\n' :: behind))) ∧
    (∀ c ∈ indent, c = ' ') ∧ diagnostic.start = ⟨line - 1, column - 1⟩
  oneLine : diagnostic.stop.line = diagnostic.start.line
  nonempty : diagnostic.start.character < diagnostic.stop.character
  start_nonneg : 0 ≤ diagnostic.start.line ∧ 0 ≤ diagnostic.start.character
  stop_nonneg : 0 ≤ diagnostic.stop.line ∧ 0 ≤ diagnostic.stop.character

end Editor

theorem LocatedError.render_front (e : LocatedError) (name : Text) :
    ∃ behind, e.render name = "error: ".toList ++ e.message ++ '\n' ::
      (e.indent ++ "--> ".toList ++ name ++ ':' :: (Text.ofInt e.span.start.line ++ ':' ::
        (Text.ofInt e.span.start.column ++ '\n' :: behind))) := by
  rw [render_eq]
  unfold headline placeLine
  exact ⟨_, by simp only [List.append_assoc, List.cons_append]; rfl⟩

theorem Editor.isPrinted_render {e e' : LocatedError} {source : Text} {token : Token}
    (same : e.SameShown e') (member : token ∈ Conversion.integers source)
    (belongs : Conversion.BelongsTo source e' token) (name : Text) :
    (Diagnostic.ofError e').IsPrinted name (e.render name) := by
  obtain ⟨behind, rendered⟩ := e.render_front name
  have message : e'.message = e.message := congrArg LiteralError.message same.error_eq
  have exact' := Token.isExact_of_mem (Conversion.mem_ofLexemes_of_mem_integers member)
  obtain ⟨line, column⟩ := belongs.marks.one_le exact'
  obtain ⟨start, stop⟩ := belongs.line_eq
  have nonempty := belongs.nonempty.2
  refine ⟨⟨e.span.start.line, e.span.start.column, e.indent, behind, ?_, ?_, ?_⟩, ?_, ?_, ?_, ?_⟩
  · rw [rendered, ← message]
    rfl
  · simp [LocatedError.indent, Text.copies]
  · simp [Diagnostic.ofError, Place.ofPosition, same.start.line_eq, same.start.column_eq]
  all_goals simp only [Diagnostic.ofError, Place.ofPosition]; omega

namespace Command

/-- A command line that asks for nothing but a check of one file, which has the given text. It has no
settings of its own, and its settings file is missing or says nothing. -/
structure ChecksFile (words : List Text) (word : Text) (tree : FileTree) (text : Text) : Prop where
  parsed : Arguments.ofTexts words = .ok { input := some word }
  named : Arguments.inputPath? { input := some word } = some (Path.ofText word)
  unset : readSettingsFile tree (Arguments.configPath { input := some word }) = .ok []
  contents : tree.read (Path.ofText word) = .ok text.toUtf8

variable {words : List Text} {word text : Text} {tree : FileTree}

theorem ChecksFile.toJob_eq (checks : ChecksFile words word tree text) :
    Arguments.toJob { input := some word } tree =
      .ok ⟨some (Path.ofText word), none, [], {}, false, false⟩ := by
  refine Arguments.toJob_eq_ok_iff.mpr ⟨rfl, [], {}, checks.unset, rfl, ?_⟩
  rw [checks.named]
  rfl

theorem ChecksFile.reads (checks : ChecksFile words word tree text) (standardInput : StandardInput) :
    Arguments.Reads { input := some word } tree standardInput
      (some ⟨(Path.ofText word).text, text.withLineFeeds⟩) := by
  have unasked : word ≠ Arguments.standardInput := by
    rintro rfl
    exact absurd checks.named (by simp [Arguments.inputPath?])
  exact .file (by simpa using unasked) checks.named checks.contents (Text.ofUtf8_toUtf8 text)

def printedErrors (name text : Text) : List Text :=
  (Conversion.ofSource text.withLineFeeds).errors.map (·.render name)

theorem ChecksFile.errorOutput (checks : ChecksFile words word tree text)
    (standardInput : StandardInput) :
    (run words tree standardInput).errorOutput =
      (printedErrors (Path.ofText word).text text).flatMap (· ++ ['\n']) := by
  have printed := run_errorOutput checks.parsed checks.toJob_eq rfl rfl rfl
    (checks.reads standardInput) (by simp)
  exact printed

end Command

namespace Editor

theorem isPrinted_diagnosticsOf {text : Text} (returns : text.ReturnsAtLineEnds) (name : Text) :
    List.Forall₂ (Diagnostic.IsPrinted name) (diagnosticsOf text)
      (Command.printedErrors name text) := by
  obtain ⟨spelled, noReturn⟩ := withReturns_withLineFeeds returns
  have alike := (Conversion.errors_withReturns noReturn spelled {}).flip
  have belong : ∀ e ∈ (Conversion.ofSource text).errors,
      ∃ token ∈ Conversion.integers text, Conversion.BelongsTo text e token := by
    intro e member
    obtain ⟨token, integer, found⟩ := List.mem_filterMap.mp member
    exact ⟨token, integer, Conversion.belongsTo_of_error? integer found⟩
  rw [diagnosticsOf, Command.printedErrors, List.forall₂_map_left_iff, List.forall₂_map_right_iff]
  refine ((List.forall₂_and_left _ _).mpr ⟨belong, alike⟩).imp ?_
  rintro e' e ⟨⟨token, member, belongs⟩, same⟩
  exact isPrinted_render same member belongs name

/-- Every event is answered by one notification with the diagnostics of the document's new text, and
these are, in their order, what the command prints for a file with this text. -/
theorem session_agrees_with_command {Store : Type} {workspace : Workspace Store}
    (returnsLast : workspace.ReturnsLast) (store : Store) (events : List Event) :
    (workspace.run store events =
      events.map fun event => [⟨event.uri, diagnosticsOf event.text⟩]) ∧
    ∀ event ∈ events, event.text.ReturnsAtLineEnds →
      ∀ words word tree standardInput, Command.ChecksFile words word tree event.text →
        (Command.run words tree standardInput).errorOutput =
          (Command.printedErrors (Path.ofText word).text event.text).flatMap (· ++ ['\n']) ∧
        List.Forall₂ (Diagnostic.IsPrinted (Path.ofText word).text) (diagnosticsOf event.text)
          (Command.printedErrors (Path.ofText word).text event.text) := by
  refine ⟨Workspace.run_eq returnsLast store events, ?_⟩
  intro event member returns words word tree standardInput checks
  exact ⟨checks.errorOutput standardInput, isPrinted_diagnosticsOf returns _⟩

theorem session_agrees_with_command_after_change :
    Workspace.documents.run [] [.opened "a".toList "0b2".toList, .changed "b".toList "1\r\n0o9".toList] =
      [[⟨"a".toList, diagnosticsOf "0b2".toList⟩], [⟨"b".toList, diagnosticsOf "1\r\n0o9".toList⟩]] ∧
    ∃ tree, Command.ChecksFile ["f".toList] "f".toList tree "1\r\n0o9".toList ∧
      (Command.run ["f".toList] tree (.ok [])).errorOutput =
        (Command.printedErrors "f".toList "1\r\n0o9".toList).flatMap (· ++ ['\n']) ∧
      List.Forall₂ (Diagnostic.IsPrinted "f".toList) (diagnosticsOf "1\r\n0o9".toList)
        (Command.printedErrors "f".toList "1\r\n0o9".toList) := by
  let tree : FileTree :=
    { entries := [⟨⟨.above 0, ["f".toList]⟩, .file (Text.toUtf8 "1\r\n0o9".toList), 0, {}⟩] }
  have unset : Command.readSettingsFile tree ⟨.relative, ["numlit.toml".toList]⟩ = .ok [] :=
    Command.readSettingsFile_of_absent (by decide +kernel)
  have checks : Command.ChecksFile ["f".toList] "f".toList tree "1\r\n0o9".toList :=
    ⟨by decide +kernel, by decide +kernel, unset, by decide +kernel⟩
  obtain ⟨notifications, agrees⟩ := session_agrees_with_command Workspace.documents_returnsLast []
    [.opened "a".toList "0b2".toList, .changed "b".toList "1\r\n0o9".toList]
  have printed := agrees (.changed "b".toList "1\r\n0o9".toList)
    (List.mem_cons_of_mem _ List.mem_cons_self) (by decide) _ _ tree (.ok []) checks
  have name : (Path.ofText "f".toList).text = "f".toList := by decide +kernel
  rw [name] at printed
  exact ⟨notifications, tree, checks, printed⟩

end Editor
end ScriptLiterals
