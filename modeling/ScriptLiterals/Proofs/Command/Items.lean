import ScriptLiterals.Command.Report
import ScriptLiterals.Proofs.Literal.Acceptance
import ScriptLiterals.Proofs.Source.Character

/-!
The literals that a run converts, each as an item of its own, and the report as a list of what each
of them comes to.

Main statement: `Job.report_eq`.
-/

namespace ScriptLiterals.Command

inductive Item
  | given (literal : Option Text)
  | found (script : Script) (token : Token)

namespace Item

def read (options : Options) : Item → Except LiteralError Int
  | given none => .error ⟨Report.missingLiteral, 0, .malformed .decimal none none⟩
  | given (some text) => readLiteral text options
  | found _ token => readLiteral token.text options

def line (value : Int) : Item → Text
  | given literal => Report.literalLine (literal.getD []) value
  | found _ token => Report.tokenLine token value

def error (e : LiteralError) : Item → Text
  | given _ => Report.literalError e
  | found script token => LocatedError.render ⟨e, e.spanIn token, script.text⟩ script.name

def line? (options : Options) (item : Item) : Option Text :=
  match item.read options with
  | .ok value => some (item.line value)
  | .error _ => none

def error? (options : Options) (item : Item) : Option Text :=
  match item.read options with
  | .ok _ => none
  | .error e => some (item.error e)

def all (literals : List (Option Text)) (script : Option Script) : List Item :=
  literals.map given ++ script.toList.flatMap fun script =>
    ((Token.ofSource script.text).filter (·.kind = .integer)).map (found script)

variable {options : Options} {item : Item}

theorem line?_eq_some_of_read {value : Int} (accepted : item.read options = .ok value) :
    item.line? options = some (item.line value) ∧ item.error? options = none := by
  simp [line?, error?, accepted]

theorem error?_eq_some_of_read {e : LiteralError} (rejected : item.read options = .error e) :
    item.line? options = none ∧ item.error? options = some (item.error e) := by
  simp [line?, error?, rejected]

theorem read_cases (options : Options) (item : Item) :
    (∃ value, item.read options = .ok value ∧
      item.line? options = some (item.line value) ∧ item.error? options = none) ∨
    ∃ e, item.read options = .error e ∧
      item.line? options = none ∧ item.error? options = some (item.error e) := by
  cases read : item.read options with
  | ok value => exact .inl ⟨value, rfl, line?_eq_some_of_read read⟩
  | error e => exact .inr ⟨e, rfl, error?_eq_some_of_read read⟩

/-- No item is lost and none counts twice. -/
theorem length_lines_add_length_errors (options : Options) (items : List Item) :
    (items.filterMap (line? options)).length + (items.filterMap (error? options)).length =
      items.length := by
  induction items with
  | nil => rfl
  | cons item items ih =>
    cases read : item.read options with
    | ok value =>
      obtain ⟨line, noError⟩ := line?_eq_some_of_read read
      simp only [List.filterMap_cons, line, noError, List.length_cons, ← ih]
      omega
    | error e =>
      obtain ⟨noLine, error⟩ := error?_eq_some_of_read read
      simp only [List.filterMap_cons, noLine, error, List.length_cons, ← ih]
      omega

theorem errors_eq_nil_iff (options : Options) (items : List Item) :
    items.filterMap (error? options) = [] ↔
      ∀ item ∈ items, ∃ value, item.read options = .ok value := by
  rw [List.filterMap_eq_nil_iff]
  apply forall₂_congr
  intro item _
  cases read : item.read options with
  | ok value => simp [(line?_eq_some_of_read read).2]
  | error e => simp [(error?_eq_some_of_read read).2]

theorem found_mem_all_iff (literals : List (Option Text)) (script : Option Script) (source : Script)
    (token : Token) :
    found source token ∈ all literals script ↔
      script = some source ∧ token ∈ Token.ofSource source.text ∧ token.kind = .integer := by
  cases script with
  | none => simp [all]
  | some script =>
    simp only [all, List.mem_append, List.mem_map, Option.toList_some, List.flatMap_cons,
      List.flatMap_nil, List.append_nil, List.mem_filter, decide_eq_true_eq, Option.some.injEq]
    constructor
    · rintro (⟨_, _, same⟩ | ⟨_, member, same⟩)
      · cases same
      · cases same
        exact ⟨rfl, member⟩
    · rintro ⟨rfl, member⟩
      exact .inr ⟨token, member, rfl⟩

end Item

def IsLine (text : Text) : Prop := ∃ content, '\n' ∉ content ∧ text = content ++ ['\n']

theorem newline_not_mem_of_readLiteral {text : Text} {options : Options} {value : Int}
    (accepted : readLiteral text options = .ok value) : '\n' ∉ text := by
  intro feed
  exact absurd (isWordChar_of_readLiteral accepted _ feed) (by decide)

theorem isLine_of_line? {options : Options} {item : Item} {line : Text}
    (present : item.line? options = some line) : IsLine line := by
  cases read : item.read options with
  | error e => simp [Item.line?, read] at present
  | ok value =>
    obtain rfl : item.line value = line := by simpa [Item.line?, read] using present
    cases item with
    | given literal =>
      cases literal with
      | none => simp [Item.read] at read
      | some text =>
        refine ⟨text ++ '\t' :: Text.ofInt value, ?_, by simp [Item.line, Report.literalLine]⟩
        simp [newline_not_mem_of_readLiteral read, newline_not_mem_ofInt]
    | found script token =>
      refine ⟨Text.ofInt token.span.start.line ++ ':' :: Text.ofInt token.span.start.column ++
        '\t' :: token.text ++ '\t' :: Text.ofInt value, ?_, by simp [Item.line, Report.tokenLine]⟩
      simp [newline_not_mem_of_readLiteral read, newline_not_mem_ofInt]

namespace Report

variable (options : Options)

def ofItems (items : List Item) : Report :=
  ⟨(items.filterMap (Item.line? options)).flatten, items.filterMap (Item.error? options)⟩

theorem ofItems_append (first second : List Item) :
    ofItems options (first ++ second) = (ofItems options first).append (ofItems options second) := by
  simp [ofItems, append]

theorem ofItems_cons (item : Item) (items : List Item) :
    ofItems options (item :: items) =
      append ⟨(item.line? options).getD [], (item.error? options).toList⟩ (ofItems options items) := by
  cases read : item.read options with
  | ok value =>
    obtain ⟨line, noError⟩ := Item.line?_eq_some_of_read read
    simp [ofItems, append, line, noError]
  | error e =>
    obtain ⟨noLine, error⟩ := Item.error?_eq_some_of_read read
    simp [ofItems, append, noLine, error]

theorem ofLiterals_eq (literals : List (Option Text)) :
    ofLiterals options literals = ofItems options (literals.map Item.given) := by
  induction literals with
  | nil => rfl
  | cons literal literals ih =>
    rw [List.map_cons, ofItems_cons, ← ih]
    cases literal with
    | none => rfl
    | some text =>
      cases read : readLiteral text options <;>
        simp [ofLiterals, append, readGiven, Item.line?, Item.error?, Item.read, read, Except.map,
          Item.line, Item.error]

theorem ofTokens_eq (script : Script) (tokens : List Token) :
    ⟨(tokens.filterMap (Conversion.value? options)).flatMap fun (token, value) => tokenLine token value,
        (tokens.filterMap (Conversion.error? script.text options)).map (·.render script.name)⟩ =
      ofItems options (tokens.map (Item.found script)) := by
  induction tokens with
  | nil => rfl
  | cons token tokens ih =>
    rw [List.map_cons, ofItems_cons, ← ih]
    cases read : readLiteral token.text options <;>
      simp [append, Conversion.value?, Conversion.error?, Item.line?, Item.error?, Item.read, read,
        Item.line, Item.error]

theorem ofScript_eq (script : Script) :
    ofScript options script =
      ofItems options ((Conversion.integers script.text).map (Item.found script)) :=
  ofTokens_eq options script (Conversion.integers script.text)

end Report

/-- The report of a job holds what its literals and then those of the script come to. -/
theorem Job.report_eq (job : Job) (script : Option Script) :
    job.report script = Report.ofItems job.options (Item.all job.literals script) := by
  rw [Item.all, Report.ofItems_append, ← Report.ofLiterals_eq]
  cases script with
  | none => simp [Job.report, Report.ofItems, Report.append]
  | some script =>
    rw [Job.report, Report.ofScript_eq, Conversion.integers]
    simp

theorem Job.report_text (job : Job) (script : Option Script) :
    (job.report script).text =
      ((Item.all job.literals script).filterMap (Item.line? job.options)).flatten := by
  rw [job.report_eq, Report.ofItems]

theorem Job.report_errors (job : Job) (script : Option Script) :
    (job.report script).errors =
      (Item.all job.literals script).filterMap (Item.error? job.options) := by
  rw [job.report_eq, Report.ofItems]

end ScriptLiterals.Command
