import ScriptLiterals.Proofs.Command.Items
import ScriptLiterals.Proofs.Command.Start
import ScriptLiterals.Proofs.File.Written

/-!
A run that does its job once, on an input that can be read and a destination that can be written.

Main statement: `run_once_converts_each_item`.
-/

namespace ScriptLiterals.Command

variable {words : List Text} {tree : FileTree} {standardInput : StandardInput}
  {arguments : Arguments} {job : Job} {script : Option Script}

/-- The script that arguments ask for, where the input can be read: the standard input, a file, or
none at all. -/
inductive Arguments.Reads (arguments : Arguments) (tree : FileTree) (standardInput : StandardInput) :
    Option Script → Prop
  | nothing (unasked : arguments.input ≠ some Arguments.standardInput)
      (absent : arguments.inputPath? = none) : Reads arguments tree standardInput none
  | stream {bytes : List UInt8} {text : Text}
      (asked : arguments.input = some Arguments.standardInput) (contents : standardInput = .ok bytes)
      (decoded : Text.ofUtf8 bytes = .ok text) :
      Reads arguments tree standardInput (some ⟨standardInputName, text.withLineFeeds⟩)
  | file {path : Path} {bytes : List UInt8} {text : Text}
      (unasked : arguments.input ≠ some Arguments.standardInput)
      (present : arguments.inputPath? = some path) (contents : tree.read path = .ok bytes)
      (decoded : Text.ofUtf8 bytes = .ok text) :
      Reads arguments tree standardInput (some ⟨path.text, text.withLineFeeds⟩)

theorem Arguments.Reads.script_eq (reads : arguments.Reads tree standardInput script)
    (input : job.input = arguments.inputPath?) :
    ∃ text, arguments.standardText? standardInput = .ok text ∧ job.script tree text = .ok script := by
  cases reads with
  | nothing unasked absent =>
    refine ⟨none, if_neg unasked, ?_⟩
    simp [Job.script, input, absent]
  | @stream bytes text asked contents decoded =>
    refine ⟨some text.withLineFeeds, ?_, rfl⟩
    simp [standardText?, asked, contents, decodeInput, decoded, Except.map]
  | file unasked present contents decoded =>
    refine ⟨none, if_neg unasked, ?_⟩
    simp [Job.script, input, present, contents, decodeInput, decoded, Except.map]

def Outcome.Delivers (outcome : Outcome Ending) (tree : FileTree) (text : Text) :
    Option Path → Prop
  | none => outcome.output = text ∧ outcome.tree = tree
  | some path => outcome.output = [] ∧ ∃ place, outcome.tree.IsUpdate tree path place text.toUtf8

theorem Job.deliver_of_isWritable (text : Text)
    (writable : ∀ path, job.output = some path → tree.IsWritable path text.toUtf8) :
    ∃ output written, job.deliver tree text = .ok (output, written) ∧
      ∀ result errorOutput,
        Outcome.Delivers ⟨result, output, errorOutput, written⟩ tree text job.output := by
  cases destination : job.output with
  | none => exact ⟨text, tree, by simp [deliver, destination], fun _ _ => ⟨rfl, rfl⟩⟩
  | some path =>
    obtain ⟨place, opened, room⟩ := writable path destination
    refine ⟨[], tree.fill place text.toUtf8, ?_, ?_⟩
    · simp [deliver, destination, FileTree.write_of_openToWrite opened room, Except.map]
    · intro result errorOutput
      exact ⟨rfl, place, FileTree.isUpdate_fill opened _⟩

/-- A run makes a line of the report or an error of each item, behind a dump of the tokens, and its
exit code says whether there was an error. -/
structure Outcome.Converts (outcome : Outcome Ending) (tree : FileTree) (job : Job) (dump : Text)
    (items : List Item) : Prop where
  report : outcome.Delivers tree (items.filterMap (Item.line? job.options)).flatten job.output
  errors : outcome.errorOutput =
    dump ++ (items.filterMap (Item.error? job.options)).flatMap (· ++ ['\n'])
  isLine : ∀ line ∈ items.filterMap (Item.line? job.options), IsLine line
  either : ∀ item ∈ items,
    (∃ value, item.read job.options = .ok value ∧
      item.line? job.options = some (item.line value) ∧ item.error? job.options = none) ∨
    ∃ e, item.read job.options = .error e ∧
      item.line? job.options = none ∧ item.error? job.options = some (item.error e)
  count : (items.filterMap (Item.line? job.options)).length +
    (items.filterMap (Item.error? job.options)).length = items.length
  code_rejected : (∃ item ∈ items, ∃ e, item.read job.options = .error e) → outcome.result.code = 1
  code_converted : (∀ item ∈ items, ∃ value, item.read job.options = .ok value) →
    outcome.result.code = 0

theorem Job.run_converts (job : Job) (text : Option Text)
    (readable : job.script tree text = .ok script)
    (writable : ∀ path, job.output = some path →
      tree.IsWritable path (job.report script).text.toUtf8) :
    ∃ status output written, job.run tree text =
        ⟨.ok status, output, job.listing script ++ (job.report script).errorLines, written⟩ ∧
      Outcome.Converts
        ⟨.finished status, output, job.listing script ++ (job.report script).errorLines, written⟩
        tree job (job.listing script) (Item.all job.literals script) := by
  obtain ⟨output, written, delivered, delivers⟩ := job.deliver_of_isWritable
    (job.report script).text writable
  refine ⟨if (job.report script).errors.isEmpty then .converted else .rejected, output, written,
    by simp [run, readable, delivered], ?_⟩
  have errors := job.report_errors script
  refine ⟨?_, ?_, ?_, ?_, ?_, ?_, ?_⟩
  · rw [← job.report_text]
    exact delivers _ _
  · rw [Report.errorLines, errors]
  · intro line member
    obtain ⟨item, -, present⟩ := List.mem_filterMap.mp member
    exact isLine_of_line? present
  · intro item _
    exact item.read_cases job.options
  · exact Item.length_lines_add_length_errors job.options _
  · rintro ⟨item, member, e, rejected⟩
    have present : (job.report script).errors.isEmpty = false := by
      rw [List.isEmpty_eq_false_iff, errors, Ne, Item.errors_eq_nil_iff]
      intro accepted
      obtain ⟨value, read⟩ := accepted item member
      rw [rejected] at read
      contradiction
    simp [present, Ending.code, Status.code]
  · intro accepted
    have absent : (job.report script).errors = [] := by
      rw [errors]
      exact (Item.errors_eq_nil_iff ..).mpr accepted
    simp [absent, Ending.code, Status.code]

theorem run_errorOutput (parsed : Arguments.ofTexts words = .ok arguments)
    (resolved : arguments.toJob tree = .ok job) (once : arguments.watch = false)
    (quiet : arguments.debug = false) (none : arguments.literals = []) {source : Script}
    (readable : arguments.Reads tree standardInput (some source))
    (writable : ∀ path, job.output = some path →
      tree.IsWritable path (job.report (some source)).text.toUtf8) :
    (run words tree standardInput).errorOutput =
      ((Conversion.ofSource source.text job.options).errors.map
        (·.render source.name)).flatMap (· ++ ['\n']) := by
  obtain ⟨-, config, options, -, -, fields⟩ := Arguments.toJob_eq_ok_iff.mp resolved
  have input : job.input = arguments.inputPath? := by rw [fields]
  have noListing : job.listing (some source) = [] := by simp [Job.listing, fields, quiet]
  have errors : (job.report (some source)).errors =
      (Conversion.ofSource source.text job.options).errors.map (·.render source.name) := by
    simp [Job.report, fields, none, Report.append, Report.ofLiterals, Report.ofScript]
  obtain ⟨text, asked, read⟩ := readable.script_eq input
  obtain ⟨status, output, written, ran, -⟩ := job.run_converts text read writable
  simp [run_of_once parsed resolved once, runOnce, asked, ran, noListing, Report.errorLines, errors]

/-- Every literal that is given and every integer of the input is converted once. -/
theorem run_once_converts_each_item (parsed : Arguments.ofTexts words = .ok arguments)
    (resolved : arguments.toJob tree = .ok job) (once : arguments.watch = false)
    (readable : arguments.Reads tree standardInput script)
    (writable : ∀ path, job.output = some path →
      tree.IsWritable path (job.report script).text.toUtf8) :
    (run words tree standardInput).Converts tree job (job.listing script)
        (Item.all arguments.literals script) ∧
      (arguments.debug = false → job.listing script = []) ∧
      ∀ source token, Item.found source token ∈ Item.all arguments.literals script ↔
        script = some source ∧ token ∈ Token.ofSource source.text ∧ token.kind = .integer := by
  obtain ⟨-, config, options, -, -, fields⟩ := Arguments.toJob_eq_ok_iff.mp resolved
  have literals : job.literals = arguments.literals := by rw [fields]
  have debug : job.debug = arguments.debug := by rw [fields]
  have input : job.input = arguments.inputPath? := by rw [fields]
  obtain ⟨text, asked, read⟩ := readable.script_eq input
  obtain ⟨status, output, written, ran, converts⟩ := job.run_converts text read writable
  refine ⟨?_, ?_, ?_⟩
  · have ended : runOnce arguments job tree standardInput = ⟨.finished status, output,
        job.listing script ++ (job.report script).errorLines, written⟩ := by
      simp [runOnce, asked, ran, Ending.ofJob]
    rw [run_of_once parsed resolved once, ended, ← literals]
    exact converts
  · intro quiet
    simp [Job.listing, debug, quiet]
  · exact Item.found_mem_all_iff arguments.literals script

theorem run_once_rejects_one_of_three :
    (run ["-l".toList, "8x".toList, "-o".toList, "out".toList, "-".toList] {}
      (.ok [0x30, 0x78, 0x46, 0x0A, 0x37])).Converts {}
        ⟨none, some ⟨.relative, ["out".toList]⟩, [some "8x".toList], {}, false, false⟩ []
        (Item.all [some "8x".toList] (some ⟨standardInputName, "0xF\n7".toList⟩)) ∧
    (run ["-l".toList, "8x".toList, "-o".toList, "out".toList, "-".toList] {}
      (.ok [0x30, 0x78, 0x46, 0x0A, 0x37])).result.code = 1 := by
  have parsed : Arguments.ofTexts
      ["-l".toList, "8x".toList, "-o".toList, "out".toList, "-".toList] =
        .ok { input := some ['-'], literals := [some "8x".toList], output := some "out".toList } := by
    decide +kernel
  have resolved : Arguments.toJob
      { input := some ['-'], literals := [some "8x".toList], output := some "out".toList } {} =
        .ok ⟨none, some ⟨.relative, ["out".toList]⟩, [some "8x".toList], {}, false, false⟩ := by
    decide +kernel
  have decoded : Text.ofUtf8 [0x30, 0x78, 0x46, 0x0A, 0x37] = .ok "0xF\n7".toList := by
    decide +kernel
  have writable : ∀ path, some (⟨.relative, ["out".toList]⟩ : Path) = some path →
      ∀ bytes, FileTree.IsWritable {} path bytes := by
    rintro _ ⟨⟩ bytes
    have unlimited : (FileTree.writeAccess {} ⟨.above 0, ["out".toList]⟩).writeBreak = none := by
      decide +kernel
    refine ⟨⟨.above 0, ["out".toList]⟩, by decide +kernel, ?_⟩
    intro count e limit
    rw [unlimited] at limit
    contradiction
  obtain ⟨converts, -⟩ := run_once_converts_each_item parsed resolved rfl
    (.stream rfl rfl decoded) fun path given => writable path given _
  have bad : ∃ e, (Item.given (some "8x".toList)).read {} = .error e := ⟨_, rfl⟩
  exact ⟨converts, converts.code_rejected ⟨_, List.mem_cons_self, bad⟩⟩

end ScriptLiterals.Command
