import ScriptLiterals.Command.Report
import ScriptLiterals.Proofs.Conversion.Place
import ScriptLiterals.Proofs.Text.Decimal
import ScriptLiterals.Proofs.Text.Lines
import ScriptLiterals.Proofs.Text.Quoted

/-!
Reading a report back. Its format escapes nothing: that each line and each field can be told apart
rests on what literals are made of.

Main statements: `ofReport?_unlines` for any clean entries, `readLiteral_of_mem_entries` for those of a
job, and `Job.report_reads_back`.
-/

namespace ScriptLiterals.Command

/-- A converted literal as a report shows it: one that was given, or one of the script with the line
and the column at which it begins. -/
inductive Entry
  | given (text : Text) (value : Int)
  | found (line column : Int) (text : Text) (value : Int)
  deriving DecidableEq, Repr

namespace Entry

def text : Entry → Text
  | given text _ => text
  | found _ _ text _ => text

def value : Entry → Int
  | given _ value => value
  | found _ _ _ value => value

def fields : Entry → List Text
  | given text value => [text, Text.ofInt value]
  | found line column text value =>
    [Text.ofInt line ++ ':' :: Text.ofInt column, text, Text.ofInt value]

def line (entry : Entry) : Text := Text.joined ['\t'] entry.fields

def ofFields? : List Text → Option Entry
  | [text, value] => do return given text (← Text.integerOfDecimal? value)
  | [place, text, value] =>
    match place.splitOn ':' with
    | [line, column] => do
      return found (← Text.integerOfDecimal? line) (← Text.integerOfDecimal? column) text
        (← Text.integerOfDecimal? value)
    | _ => none
  | _ => none

def ofReport? (report : Text) : Option (List Entry) :=
  let lines := report.splitOn '\n'
  if lines.getLast? = some [] then lines.dropLast.mapM fun line => ofFields? (line.splitOn '\t')
  else none

def ofGiven? (options : Options) : Option Text → Option Entry
  | none => none
  | some text =>
    match readLiteral text options with
    | .ok value => some (given text value)
    | .error _ => none

def ofConverted (converted : Token × Int) : Entry :=
  found converted.1.span.start.line converted.1.span.start.column converted.1.text converted.2

def IsClean (entry : Entry) : Prop := ∀ c ∈ entry.text, isWordChar c = true

end Entry

def Job.entries (job : Job) (script : Option Script) : List Entry :=
  job.literals.filterMap (Entry.ofGiven? job.options) ++ script.toList.flatMap fun script =>
    (Conversion.ofSource script.text job.options).values.map Entry.ofConverted

namespace Entry

variable {entry : Entry} {entries : List Entry} {options : Options}

theorem not_mem_fields (clean : entry.IsClean) {c : Char} (separator : isNumberChar c = false)
    (other : c ≠ ':') : ∀ field ∈ entry.fields, c ∉ field := by
  have number : ∀ n, c ∉ Text.ofInt n := by
    intro n member
    have := isNumberChar_of_mem_ofInt member
    simp [separator] at this
  have literal : c ∉ entry.text := by
    intro member
    have := isNumberChar_of_isWordChar (clean c member)
    simp [separator] at this
  cases entry with
  | given text value => simpa [fields, number, Entry.text] using literal
  | found line column text value => simpa [fields, number, other, Entry.text] using literal

theorem splitOn_line (clean : entry.IsClean) : entry.line.splitOn '\t' = entry.fields := by
  apply List.splitOn_intercalate
  · exact not_mem_fields clean rfl (by decide)
  · cases entry <;> simp [fields]

theorem newline_not_mem_line (clean : entry.IsClean) : '\n' ∉ entry.line :=
  Text.newline_not_mem_joined (by decide) (not_mem_fields clean rfl (by decide))

theorem ofFields?_fields (entry : Entry) : ofFields? entry.fields = some entry := by
  have number := Text.integerOfDecimal?_ofInt
  cases entry with
  | given text value => simp [fields, ofFields?, number]
  | found line column text value =>
    simp [fields, ofFields?, Text.splitOn_colon_ofInt, number]

theorem mapM_ofFields? (clean : ∀ entry ∈ entries, entry.IsClean) :
    (entries.map line).mapM (fun line => ofFields? (line.splitOn '\t')) = some entries := by
  induction entries with
  | nil => rfl
  | cons entry entries ih =>
    rcases List.forall_mem_cons.mp clean with ⟨first, others⟩
    simp [splitOn_line first, ofFields?_fields, ih others]

theorem splitOn_unlines_line (clean : ∀ entry ∈ entries, entry.IsClean) :
    (Text.unlines (entries.map line)).splitOn '\n' = entries.map line ++ [[]] := by
  have oneLine : ∀ text ∈ entries.map line, '\n' ∉ text := by
    intro text member
    rcases List.mem_map.mp member with ⟨entry, present, rfl⟩
    exact newline_not_mem_line (clean entry present)
  have split := Text.splitOn_unlines oneLine []
  rwa [List.append_nil] at split

theorem ofReport?_unlines (clean : ∀ entry ∈ entries, entry.IsClean) :
    ofReport? (Text.unlines (entries.map line)) = some entries := by
  simp [ofReport?, splitOn_unlines_line clean, mapM_ofFields? clean]

theorem text_ofLiterals_singleton (options : Options) (literal : Option Text) :
    (Report.ofLiterals options [literal]).text =
      Text.unlines ((ofGiven? options literal).toList.map line) := by
  cases literal with
  | none => rfl
  | some text =>
    cases read : readLiteral text options with
    | error e => simp [Report.ofLiterals, Report.readGiven, ofGiven?, read, Except.map]
    | ok value =>
      simp [Report.ofLiterals, Report.readGiven, ofGiven?, read, Except.map, Report.literalLine,
        Entry.line, fields, Text.joined]

theorem text_ofLiterals (options : Options) (literals : List (Option Text)) :
    (Report.ofLiterals options literals).text =
      Text.unlines ((literals.filterMap (ofGiven? options)).map line) := by
  induction literals with
  | nil => rfl
  | cons literal literals ih =>
    have split : (Report.ofLiterals options (literal :: literals)).text =
        (Report.ofLiterals options [literal]).text ++ (Report.ofLiterals options literals).text := by
      simp [Report.ofLiterals]
    rw [split, text_ofLiterals_singleton, ih, ← Text.unlines_append, List.filterMap_cons]
    cases ofGiven? options literal <;> rfl

theorem text_ofScript (options : Options) (script : Script) :
    (Report.ofScript options script).text =
      Text.unlines (((Conversion.ofSource script.text options).values.map ofConverted).map line) := by
  simp only [Report.ofScript, Text.unlines, List.flatMap_map]
  apply List.flatMap_congr
  rintro ⟨token, value⟩ -
  simp [Report.tokenLine, ofConverted, Entry.line, fields, Text.joined]

end Entry

namespace Job

variable {job : Job} {script : Option Script} {entry : Entry}

theorem text_report (job : Job) (script : Option Script) :
    (job.report script).text = Text.unlines ((job.entries script).map Entry.line) := by
  cases script with
  | none => simp [report, entries, Entry.text_ofLiterals]
  | some script =>
    simp [report, entries, Report.append, Entry.text_ofLiterals, Entry.text_ofScript,
      Text.unlines_append]

theorem readLiteral_of_mem_entries (member : entry ∈ job.entries script) :
    readLiteral entry.text job.options = .ok entry.value := by
  rcases List.mem_append.mp member with given | found
  · rcases List.mem_filterMap.mp given with ⟨literal, -, accepted⟩
    cases literal with
    | none => contradiction
    | some text =>
      cases read : readLiteral text job.options with
      | error e => simp [Entry.ofGiven?, read] at accepted
      | ok value =>
        cases (by simpa [Entry.ofGiven?, read] using accepted : Entry.given text value = entry)
        exact read
  · rcases List.mem_flatMap.mp found with ⟨source, -, converted⟩
    rcases List.mem_map.mp converted with ⟨⟨token, value⟩, present, rfl⟩
    rcases List.mem_filterMap.mp present with ⟨original, -, accepted⟩
    rcases Conversion.value?_eq_some_iff.mp accepted with ⟨rfl, read⟩
    exact read

theorem isClean_of_mem_entries (member : entry ∈ job.entries script) : entry.IsClean :=
  isWordChar_of_readLiteral (readLiteral_of_mem_entries member)

/-- A report is one line for each converted literal, with its text and value and for those of the
script also its place between tabs, and is read back to them without loss. Under the options of the
job each literal has the value that is shown, which is in range. -/
theorem report_reads_back (job : Job) (script : Option Script) :
    let report := (job.report script).text
    let entries := job.entries script
    report.splitOn '\n' = entries.map Entry.line ++ [[]] ∧
      (∀ entry ∈ entries, entry.line.splitOn '\t' = entry.fields) ∧
      Entry.ofReport? report = some entries ∧
      ∀ entry ∈ entries, readLiteral entry.text job.options = .ok entry.value ∧
        0 ≤ entry.value ∧ entry.value ≤ job.options.width.maximum := by
  intro report entries
  have text : report = Text.unlines (entries.map Entry.line) := job.text_report script
  -- that the text of a literal is a word is all that reading back needs
  have clean : ∀ entry ∈ entries, entry.IsClean := by
    intro entry member
    exact isClean_of_mem_entries member
  rw [text]
  refine ⟨Entry.splitOn_unlines_line clean, ?_, Entry.ofReport?_unlines clean, ?_⟩
  · intro entry member
    exact Entry.splitOn_line (clean entry member)
  · intro entry member
    have read := readLiteral_of_mem_entries member
    exact ⟨read, bounds_of_readLiteral read⟩

end Job
end ScriptLiterals.Command
