import ScriptLiterals.Proofs.Command.Start
import ScriptLiterals.Proofs.Literal.Settings

/-!
Where the settings of a job come from. Each of the three is given by the arguments, or configured in
the table `literals` of the settings file, or has its default; none depends on another, and what is
checked is only what counts in the end.

Main statements: `inForce_iff` for one setting, `settings_setLiteral` for the change of one entry, and
`settings_merge_field_by_field`.
-/

namespace ScriptLiterals.Command

variable {α : Type} {configured : α → Prop} {found : Option α} {arguments : Arguments}
  {config : Toml.Table} {name other : Text} {value : Toml.Value}

def Configures (config : Toml.Table) (name : Text) (value : Toml.Value) : Prop :=
  ∃ table : Toml.Table, config.find? "literals".toList = some (.table table) ∧
    table.find? name = some value

/-- The setting that counts: what was given, else what is configured, else the default. -/
inductive InForce (given : Option α) (configured : α → Prop) (fallback : α) : α → Prop
  | given {a : α} (present : given = some a) : InForce given configured fallback a
  | configured {a : α} (absent : given = none) (held : configured a) :
      InForce given configured fallback a
  | fallback (absent : given = none) (nothing : ∀ a, ¬ configured a) :
      InForce given configured fallback fallback

theorem inForce_iff (held : ∀ a, configured a ↔ found = some a) (given : Option α) (fallback a : α) :
    InForce given configured fallback a ↔ a = given.getD (found.getD fallback) := by
  constructor
  · intro counts
    cases counts with
    | given present => simp [present]
    | configured absent own => simp [absent, (held a).mp own]
    | fallback absent nothing =>
      have none : found = none := by
        apply Option.eq_none_iff_forall_ne_some.mpr
        intro a same
        exact nothing a ((held a).mpr same)
      simp [absent, none]
  · rintro rfl
    cases given with
    | some a => exact .given rfl
    | none =>
      cases found with
      | some a => exact .configured rfl ((held a).mpr rfl)
      | none =>
        apply InForce.fallback rfl
        intro a own
        have := (held a).mp own
        contradiction

namespace Arguments

/-- The width that counts. A boolean in the settings file is one of the integers 0 and 1. -/
def WidthInForce (arguments : Arguments) (config : Toml.Table) : Int → Prop :=
  InForce arguments.width
    (fun width => Configures config "width".toList (.integer width) ∨
      ∃ value : Bool, Configures config "width".toList (.boolean value) ∧
        width = if value then 1 else 0)
    64

def SeparatorsInForce (arguments : Arguments) (config : Toml.Table) : Text → Prop :=
  InForce (if arguments.strictSeparators then some "strict".toList else none)
    (fun name => Configures config "separators".toList (.text name)) "lenient".toList

def LeadingZerosInForce (arguments : Arguments) (config : Toml.Table) : Bool → Prop :=
  InForce (if arguments.noLeadingZeros then some false else none)
    (fun allowed => Configures config "leading_zeros".toList (.boolean allowed)) true

end Arguments

def literalsTable (config : Toml.Table) : Toml.Table :=
  ((config.find? "literals".toList).bind Toml.Value.table?).getD []

theorem literalsTable_of_table? (noTable : value.table? = none) :
    literalsTable (config.set "literals".toList value) = [] := by
  rw [literalsTable, Toml.Table.find?_set, if_pos rfl, Option.bind_some, noTable]
  rfl

theorem configures_iff :
    Configures config name value ↔ (literalsTable config).find? name = some value := by
  unfold Configures literalsTable
  cases config.find? "literals".toList with
  | none => simp [Toml.Table.find?]
  | some entry => cases entry <;> simp [Toml.Value.table?, Toml.Table.find?]

def setLiteral (config : Toml.Table) (name : Text) (value : Toml.Value) : Toml.Table :=
  config.set "literals".toList (.table ((literalsTable config).set name value))

theorem find?_setLiteral (config : Toml.Table) (name other : Text) (value : Toml.Value) :
    (literalsTable (setLiteral config name value)).find? other =
      if other = name then some value else (literalsTable config).find? other := by
  have table : literalsTable (setLiteral config name value) =
      (literalsTable config).set name value := by
    rw [literalsTable, setLiteral, Toml.Table.find?_set, if_pos rfl]
    rfl
  rw [table, Toml.Table.find?_set]

theorem getD_setLiteral {given : Option α} (kept : name = other → given ≠ none)
    (read : Toml.Value → Option α) (fallback : α) :
    given.getD ((((literalsTable (setLiteral config name value)).find? other).bind read).getD
        fallback) =
      given.getD ((((literalsTable config).find? other).bind read).getD fallback) := by
  cases given with
  | some a => rfl
  | none =>
    have elsewhere : other ≠ name := by
      intro same
      exact kept same.symm rfl
    rw [find?_setLiteral, if_neg elsewhere]

namespace Arguments

theorem settings_eq (arguments : Arguments) (config : Toml.Table) :
    arguments.settings config =
      { width := arguments.width.getD
          ((((literalsTable config).find? "width".toList).bind Toml.Value.integer?).getD 64)
        separators := (if arguments.strictSeparators then some "strict".toList else none).getD
          ((((literalsTable config).find? "separators".toList).bind Toml.Value.text?).getD
            "lenient".toList)
        leadingZeros := (if arguments.noLeadingZeros then some false else none).getD
          ((((literalsTable config).find? "leading_zeros".toList).bind
            Toml.Value.boolean?).getD true) } := by
  unfold settings
  cases arguments.strictSeparators <;> cases arguments.noLeadingZeros <;> rfl

theorem widthInForce_iff (arguments : Arguments) (config : Toml.Table) (width : Int) :
    arguments.WidthInForce config width ↔ width = (arguments.settings config).width := by
  rw [settings_eq]
  apply inForce_iff
  intro width
  simp only [configures_iff]
  cases (literalsTable config).find? "width".toList with
  | none => simp
  | some value => cases value <;> simp [Toml.Value.integer?, eq_comm]

theorem separatorsInForce_iff (arguments : Arguments) (config : Toml.Table) (name : Text) :
    arguments.SeparatorsInForce config name ↔ name = (arguments.settings config).separators := by
  rw [settings_eq]
  apply inForce_iff
  intro name
  rw [configures_iff]
  cases (literalsTable config).find? "separators".toList with
  | none => simp
  | some value => cases value <;> simp [Toml.Value.text?]

theorem leadingZerosInForce_iff (arguments : Arguments) (config : Toml.Table) (allowed : Bool) :
    arguments.LeadingZerosInForce config allowed ↔
      allowed = (arguments.settings config).leadingZeros := by
  rw [settings_eq]
  apply inForce_iff
  intro allowed
  rw [configures_iff]
  cases (literalsTable config).find? "leading_zeros".toList with
  | none => simp
  | some value => cases value <;> simp [Toml.Value.boolean?]

theorem settings_setLiteral (arguments : Arguments) (config : Toml.Table) (name : Text)
    (value : Toml.Value) :
    ((name = "width".toList → arguments.width ≠ none) →
      (arguments.settings (setLiteral config name value)).width =
        (arguments.settings config).width) ∧
    ((name = "separators".toList → arguments.strictSeparators = true) →
      (arguments.settings (setLiteral config name value)).separators =
        (arguments.settings config).separators) ∧
    ((name = "leading_zeros".toList → arguments.noLeadingZeros = true) →
      (arguments.settings (setLiteral config name value)).leadingZeros =
        (arguments.settings config).leadingZeros) := by
  simp only [settings_eq]
  refine ⟨?_, ?_, ?_⟩
  · intro kept
    exact getD_setLiteral kept _ _
  · intro kept
    apply getD_setLiteral
    intro same
    simp [kept same]
  · intro kept
    apply getD_setLiteral
    intro same
    simp [kept same]

theorem job_eq_error_iff (arguments : Arguments) (config : Toml.Table) (e : JobError) :
    arguments.job config = .error e ↔
      ∃ invalid, (arguments.settings config).check = .error invalid ∧ e = .settings invalid := by
  unfold Arguments.job
  cases (arguments.settings config).check with
  | error invalid => simp [eq_comm]
  | ok options => simp

theorem job_of_settings_eq {changed : Toml.Table}
    (same : arguments.settings changed = arguments.settings config) :
    arguments.job changed = arguments.job config := by
  rw [Arguments.job, same, Arguments.job]

/-- Three settings are the ones in force, and only these are checked, the width first: with valid ones
the arguments come to their job, and with others to the error of the first that is invalid. -/
structure Merges (arguments : Arguments) (config : Toml.Table) (width : Int) (separators : Text)
    (leadingZeros : Bool) : Prop where
  width_iff : ∀ w, arguments.WidthInForce config w ↔ w = width
  separators_iff : ∀ s, arguments.SeparatorsInForce config s ↔ s = separators
  leadingZeros_iff : ∀ z, arguments.LeadingZerosInForce config z ↔ z = leadingZeros
  job_iff : ∀ job, arguments.job config = .ok job ↔ ∃ options : Options,
    ((options.width.bits : Int) = width ∧ options.separators.name = separators ∧
      options.leadingZeros = leadingZeros) ∧
    job = ⟨arguments.inputPath?, path? arguments.output, arguments.literals, options,
      arguments.watch, arguments.debug⟩
  error_iff : ∀ e, arguments.job config = .error e ↔
    (width ∉ [8, 16, 32, 64] ∧ e = .settings .width) ∨
      (width ∈ [8, 16, 32, 64] ∧ separators ∉ ["lenient".toList, "strict".toList] ∧
        e = .settings (.separators separators))

theorem merges (arguments : Arguments) (config : Toml.Table) :
    arguments.Merges config (arguments.settings config).width
      (arguments.settings config).separators (arguments.settings config).leadingZeros where
  width_iff := arguments.widthInForce_iff config
  separators_iff := arguments.separatorsInForce_iff config
  leadingZeros_iff := arguments.leadingZerosInForce_iff config
  job_iff := by
    intro job
    simp only [job_eq_ok_iff, Settings.check_eq_ok_iff]
  error_iff := by
    intro e
    rw [job_eq_error_iff]
    simp only [Settings.check_eq_error_iff]
    constructor
    · rintro ⟨invalid, ⟨width, rfl⟩ | ⟨width, separators, rfl⟩, rfl⟩
      · exact .inl ⟨width, rfl⟩
      · exact .inr ⟨width, separators, rfl⟩
    · rintro (⟨width, rfl⟩ | ⟨width, separators, rfl⟩)
      · exact ⟨_, .inl ⟨width, rfl⟩, rfl⟩
      · exact ⟨_, .inr ⟨width, separators, rfl⟩, rfl⟩

/-- Each setting counts for itself. An entry of the settings file matters for no other setting, and
for none at all if an argument overrides it; what stands in place of the table counts as absent. -/
theorem settings_merge_field_by_field (accepted : arguments.refusal? = none)
    (config : Toml.Table) :
    (∃ width separators leadingZeros, arguments.Merges config width separators leadingZeros) ∧
    (∀ name value,
      let changed := setLiteral config name value
      (name ≠ "width".toList →
        ∀ w, arguments.WidthInForce changed w ↔ arguments.WidthInForce config w) ∧
      (name ≠ "separators".toList →
        ∀ s, arguments.SeparatorsInForce changed s ↔ arguments.SeparatorsInForce config s) ∧
      (name ≠ "leading_zeros".toList →
        ∀ z, arguments.LeadingZerosInForce changed z ↔ arguments.LeadingZerosInForce config z) ∧
      ((name = "width".toList → arguments.width ≠ none) →
        (name = "separators".toList → arguments.strictSeparators = true) →
        (name = "leading_zeros".toList → arguments.noLeadingZeros = true) →
        arguments.job changed = arguments.job config)) ∧
    (∀ value : Toml.Value, value.table? = none →
      arguments.job (config.set "literals".toList value) = arguments.job []) ∧
    ∀ tree, readSettingsFile tree arguments.configPath = .ok config →
      arguments.toJob tree = arguments.job config := by
  refine ⟨⟨_, _, _, arguments.merges config⟩, ?_, ?_, ?_⟩
  · intro name value changed
    rcases arguments.settings_setLiteral config name value with ⟨width, separators, leadingZeros⟩
    simp only [widthInForce_iff, separatorsInForce_iff, leadingZerosInForce_iff]
    refine ⟨?_, ?_, ?_, ?_⟩
    · intro elsewhere w
      rw [width fun same => absurd same elsewhere]
    · intro elsewhere s
      rw [separators fun same => absurd same elsewhere]
    · intro elsewhere z
      rw [leadingZeros fun same => absurd same elsewhere]
    · intro givenWidth givenSeparators givenZeros
      apply job_of_settings_eq
      exact Settings.ext (width givenWidth) (separators givenSeparators) (leadingZeros givenZeros)
  · intro value noTable
    apply job_of_settings_eq
    rw [settings_eq, literalsTable_of_table? noTable, settings_eq]
    rfl
  · intro tree loaded
    simp only [toJob, accepted, loaded]

theorem settings_merge_around_boolean_width :
    let arguments : Arguments := { literals := [some "1".toList], strictSeparators := true }
    let config : Toml.Table := [("literals".toList, .table [("width".toList, .boolean true),
      ("separators".toList, .text "sometimes".toList), ("leading_zeros".toList, .text "no".toList)])]
    arguments.refusal? = none ∧ arguments.job config = .error (.settings .width) ∧
      arguments.job (setLiteral config "width".toList (.integer 8)) =
        .ok ⟨none, none, [some "1".toList], ⟨.w8, .strict, true⟩, false, false⟩ := by
  intro arguments config
  have accepted : arguments.refusal? = none := by decide
  refine ⟨accepted, ?_, ?_⟩
  · rcases settings_merge_field_by_field accepted config with ⟨⟨width, separators, zeros, merges⟩, -⟩
    have one : 1 = width := (merges.width_iff 1).mp
      (.configured rfl (.inr ⟨true, ⟨_, rfl, rfl⟩, rfl⟩))
    apply (merges.error_iff _).mpr
    left
    rw [← one]
    decide
  · rcases settings_merge_field_by_field accepted (setLiteral config "width".toList (.integer 8))
      with ⟨⟨width, separators, zeros, merges⟩, -⟩
    have eight : 8 = width := (merges.width_iff 8).mp (.configured rfl (.inl ⟨_, rfl, rfl⟩))
    have strict : "strict".toList = separators := (merges.separators_iff _).mp (.given rfl)
    have allowed : true = zeros := by
      apply (merges.leadingZeros_iff true).mp
      apply InForce.fallback rfl
      rintro a ⟨table, found, held⟩
      cases found
      cases held
    apply (merges.job_iff _).mpr
    rw [← eight, ← strict, ← allowed]
    exact ⟨⟨.w8, .strict, true⟩, ⟨rfl, rfl, rfl⟩, rfl⟩

end Arguments
end ScriptLiterals.Command
