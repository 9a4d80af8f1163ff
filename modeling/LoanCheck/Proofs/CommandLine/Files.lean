import LoanCheck.CommandLine.Run
import LoanCheck.Proofs.Scope.Transition

/-!
# Reading files

A file that cannot be found, or whose text is no program or configuration, is reported.  Two things
are not: a path that no system can be asked for, and data that passes a limit of its format.  The
theorems `loadSource_cases` and `buildConfig_cases` tell exactly when a source or the configuration
is had, reported, or ends the program.
-/

namespace LoanCheck

theorem Action.limit?_of_ofJson {point : Nat} {data : Json} {error : DataError}
    (failed : Action.ofJson point data = .error error) : error.limit? = none := by
  unfold Action.ofJson at failed
  split at failed
  · simp only at failed
    split at failed
    · cases failed
      rfl
    · split at failed
      · cases failed
        rfl
      · split at failed
        · cases failed
        · cases failed
          rfl
  · cases failed
    rfl

namespace CodeUnit

theorem limit?_of_statementsOfJson {point : Nat} {items : List Json} {error : DataError}
    (failed : statementsOfJson point items = .error error) : error.limit? = none := by
  induction items generalizing point with
  | nil => cases failed
  | cons data rest inductionHypothesis =>
      rcases bind_eq_error_iff.mp failed with first | ⟨action, _, later⟩
      · exact Action.limit?_of_ofJson first
      · rcases bind_eq_error_iff.mp later with others | ⟨statements, _, ended⟩
        · exact inductionHypothesis others
        · cases ended

theorem limit?_of_ofJson {data : Json} {error : DataError}
    (failed : CodeUnit.ofJson data = .error error) : error.limit? = none := by
  unfold CodeUnit.ofJson at failed
  split at failed
  · split at failed
    · rcases bind_eq_error_iff.mp failed with statements | ⟨_, _, ended⟩
      · exact limit?_of_statementsOfJson statements
      · cases ended
    · cases failed
      rfl
  · cases failed
    rfl

end CodeUnit

namespace Program

theorem limit?_of_unitsOfJson {items : List Json} {error : DataError}
    (failed : unitsOfJson items = .error error) : error.limit? = none := by
  induction items with
  | nil => cases failed
  | cons data rest inductionHypothesis =>
      rcases bind_eq_error_iff.mp failed with first | ⟨unit, _, later⟩
      · exact CodeUnit.limit?_of_ofJson first
      · rcases bind_eq_error_iff.mp later with others | ⟨units, _, ended⟩
        · exact inductionHypothesis others
        · cases ended

/-- Only the text of data passes limits, not what it says. -/
theorem limit?_of_ofJson {data : Json} {error : DataError}
    (failed : Program.ofJson data = .error error) : error.limit? = none := by
  rcases bind_eq_error_iff.mp failed with items | ⟨items, _, later⟩
  · unfold unitItems at items
    split at items
    · split at items <;> cases items
      rfl
    · cases items
    · cases items
      rfl
  · rcases bind_eq_error_iff.mp later with units | ⟨_, _, ended⟩
    · exact limit?_of_unitsOfJson units
    · cases ended

end Program

namespace Config

theorem bounded_error {least : Nat} {given other : ConfigError} {value : Json}
    (failed : Settings.bounded least given value = .error other) : other = given := by
  unfold Settings.bounded at failed
  split at failed
  · cases failed
  · split at failed <;> cases failed
    rfl
  · cases failed
    rfl

theorem limit?_of_ofSettings {settings : Settings} {error : ConfigError}
    (failed : ofSettings settings = .error error) : error.limit? = none := by
  unfold ofSettings at failed
  simp only at failed
  split at failed
  · rcases bind_eq_error_iff.mp failed with absent | ⟨_, _, checked⟩
    · cases absent
    · rcases bind_eq_error_iff.mp checked with statements | ⟨_, _, later⟩
      · rw [bounded_error statements]
        rfl
      · rcases bind_eq_error_iff.mp later with jobs | ⟨_, _, ended⟩
        · rw [bounded_error jobs]
          rfl
        · cases ended
  · cases failed
    rfl

theorem limit?_of_setOption {settings : Settings} {option : String} {value : Json}
    {error : ConfigError} (failed : setOption settings option value = .error error) :
    error.limit? = none := by
  unfold setOption at failed
  split at failed <;> cases failed
  rfl

theorem limit?_of_ofFields {fields : List (String × Json)} {error : ConfigError}
    (failed : ofFields fields = .error error) : error.limit? = none := by
  have stored : ∀ settings : Settings, fields.foldlM
      (fun settings field => setOption settings field.1 field.2) settings = .error error →
        error.limit? = none := by
    clear failed
    intro settings failed
    induction fields generalizing settings with
    | nil => cases failed
    | cons field rest inductionHypothesis =>
        rw [List.foldlM_cons] at failed
        rcases bind_eq_error_iff.mp failed with first | ⟨later, _, others⟩
        · exact limit?_of_setOption first
        · exact inductionHypothesis later others
  rcases bind_eq_error_iff.mp failed with options | ⟨_, _, checked⟩
  · exact stored {} options
  · exact limit?_of_ofSettings checked

/-- The text of a configuration passes a limit if it does so as data. -/
theorem limit?_of_ofText {file : String} {text : List Char} {error : ConfigError}
    (failed : ofText file text = .error error)
    (within : ∀ issue, Json.parseChars text = .error issue → issue.limit? = none) :
    error.limit? = none := by
  unfold ofText at failed
  split at failed
  · next issue parsed =>
      cases failed
      exact within issue parsed
  · exact limit?_of_ofFields failed
  · cases failed
    rfl

end Config

/-- What is in the file, if it is there, is text. -/
def Disk.Decodes (disk : Disk) (path : Path) : Prop :=
  ∀ bytes, disk path = .ok bytes → ∃ text, Text.decode bytes = .ok text

/-- The text of the file is not read as data, however well formed it is. -/
def Disk.Exceeds (disk : Disk) (path : Path) : Prop :=
  ∃ text error limit, disk.readText path = .ok text ∧ Json.parseChars text = .error error ∧
    error.limit? = some limit

/-- No system can be asked for the file. -/
def Path.HoldsNull (path : Path) : Prop := path.chars.contains (Char.ofNat 0) = true

/-- A file of text is read, cannot be found, or cannot be asked for. -/
theorem Disk.Decodes.readText_cases {disk : Disk} {path : Path} (decodes : disk.Decodes path) :
    (disk.readText path = .error .nullInPath ∧ path.HoldsNull) ∨
      ¬path.HoldsNull ∧ ((∃ error, disk.readText path = .error (.file error)) ∨
        ∃ text, disk.readText path = .ok text) := by
  unfold Disk.readText
  split
  · next null => exact .inl ⟨rfl, null⟩
  · next free =>
      refine .inr ⟨free, ?_⟩
      cases found : disk path with
      | error error => exact .inl ⟨error, rfl⟩
      | ok bytes =>
          obtain ⟨text, decoded⟩ := decodes bytes found
          refine .inr ⟨Text.unifyNewlines text, ?_⟩
          simp only [decoded]

theorem Disk.not_exceeds_of_error {disk : Disk} {path : Path} {error : TextFileError}
    (unread : disk.readText path = .error error) : ¬disk.Exceeds path := by
  rintro ⟨text, _, _, read, _⟩
  rw [unread] at read
  cases read

theorem Disk.exceeds_iff_of_ok {disk : Disk} {path : Path} {text : List Char}
    (read : disk.readText path = .ok text) :
    disk.Exceeds path ↔
      ∃ error limit, Json.parseChars text = .error error ∧ error.limit? = some limit := by
  constructor
  · rintro ⟨other, error, limit, alsoRead, parsed, passed⟩
    rw [read] at alsoRead
    cases alsoRead
    exact ⟨error, limit, parsed, passed⟩
  · rintro ⟨error, limit, parsed, passed⟩
    exact ⟨text, error, limit, read, parsed, passed⟩

namespace CommandLine

/-- Reading a source ends the program. -/
def BreaksSource (disk : Disk) (path : Path) : Prop :=
  path.HoldsNull ∨ path.isData = true ∧ disk.Exceeds path

/-- Text that should hold data is not read, however well formed it is. -/
def PassesLimit (path : Path) (text : List Char) : Prop :=
  path.isData = true ∧
    ∃ error limit, Json.parseChars text = .error error ∧ error.limit? = some limit

theorem ofFileText_cases (path : Path) (text : List Char) :
    (∃ program, Program.ofFileText path text = .ok program ∧ ¬PassesLimit path text) ∨
      (∃ error, Program.ofFileText path text = .error (.text path.text error) ∧
        ¬PassesLimit path text) ∨
      ∃ error, Program.ofFileText path text = .error (.data error) ∧
        (PassesLimit path text ↔ ∃ limit, error.limit? = some limit) := by
  unfold Program.ofFileText PassesLimit
  cases path.isData with
  | false =>
      cases Program.readText (some path.text) path.stem text with
      | ok program => simp
      | error error => simp
  | true =>
      rw [Program.readData]
      cases Json.parseChars text with
      | error error => simp [DataError.limit?]
      | ok data =>
          cases made : Program.ofJson data with
          | ok program => simp [made]
          | error error => simp [made, Program.limit?_of_ofJson made]

/-- What is wrong with data is told, unless it passes a limit. -/
theorem loadSource_of_data {disk : Disk} {path : Path} {error : DataError}
    (failed : Program.load disk path = .error (.data error)) :
    (error.limit? = none → ∃ message, loadSource disk path = .ok ⟨path, .error message⟩) ∧
      ∀ limit, error.limit? = some limit → loadSource disk path = .error (.limit limit) := by
  refine ⟨fun within => ?_, fun limit passed => ?_⟩
  · simp only [loadSource, failed, DataError.fault, within]
    exact ⟨_, rfl⟩
  · simp only [loadSource, failed, DataError.fault, passed]
    rfl

/-- A source holds a program, or is told to hold none, or reading it ends the program. -/
theorem loadSource_cases {disk : Disk} {path : Path} (decodes : disk.Decodes path) :
    (∃ program, Program.load disk path = .ok program ∧ ¬BreaksSource disk path ∧
        loadSource disk path = .ok ⟨path, .ok program⟩) ∨
      (∀ program, Program.load disk path ≠ .ok program) ∧
        ((∃ message, ¬BreaksSource disk path ∧
            loadSource disk path = .ok ⟨path, .error message⟩) ∨
          ∃ escape, BreaksSource disk path ∧ loadSource disk path = .error escape) := by
  have refuted {error : SourceError} (failed : Program.load disk path = .error error) :
      ∀ program, Program.load disk path ≠ .ok program := by
    intro program loaded
    rw [failed] at loaded
    cases loaded
  rcases decodes.readText_cases with
    ⟨unread, null⟩ | ⟨free, ⟨error, unread⟩ | ⟨text, read⟩⟩
  · have failed : Program.load disk path = .error .nullInPath := by rw [Program.load, unread]
    refine .inr ⟨refuted failed, .inr ⟨.nullInPath, .inl null, ?_⟩⟩
    rw [loadSource, failed]
  · have failed : Program.load disk path = .error (.file error) := by rw [Program.load, unread]
    refine .inr ⟨refuted failed, .inl ⟨"cannot read input: " ++ error.message, ?_, ?_⟩⟩
    · rintro (null | ⟨_, exceeds⟩)
      · exact free null
      · exact Disk.not_exceeds_of_error unread exceeds
    · rw [loadSource, failed]
  · have breaks : BreaksSource disk path ↔ PassesLimit path text := by
      rw [BreaksSource, or_iff_right free, Disk.exceeds_iff_of_ok read, PassesLimit]
    have loaded : Program.load disk path = Program.ofFileText path text := by
      rw [Program.load, read]
    rw [breaks]
    rcases ofFileText_cases path text with
      ⟨program, made, fits⟩ | ⟨error, made, fits⟩ | ⟨error, made, passesLimit⟩
    · rw [made] at loaded
      refine .inl ⟨program, loaded, fits, ?_⟩
      rw [loadSource, loaded]
    · rw [made] at loaded
      refine .inr ⟨refuted loaded, .inl ⟨faultMessage (error.fault (some path.text)), fits, ?_⟩⟩
      rw [loadSource, loaded]
    · rw [made] at loaded
      obtain ⟨told, ends⟩ := loadSource_of_data loaded
      refine .inr ⟨refuted loaded, ?_⟩
      rw [passesLimit]
      cases passed : error.limit? with
      | none =>
          obtain ⟨message, kept⟩ := told passed
          exact .inl ⟨message, by simp, kept⟩
      | some limit => exact .inr ⟨.limit limit, ⟨limit, rfl⟩, ends limit passed⟩

namespace Options

variable (disk : Disk) (options : Options)

/-- The configuration that is asked for can be had. -/
def Configures (config : Config) : Prop := buildConfig disk options = .ok (.ok config)

/-- Reading the configuration file ends the program. -/
def BreaksConfig : Prop :=
  options.config = some .nothing ∨ ∃ name, options.config = some (.value name) ∧
    ((Path.ofChars name).HoldsNull ∨ disk.Exceeds (Path.ofChars name))

end Options

/-- If what was loaded passes no limit, the configuration is had or its fault is told. -/
theorem buildConfig_of_within {disk : Disk} {options : Options} {loaded : Except ConfigError Config}
    (found : loadConfig disk options.config = .ok loaded)
    (within : ∀ error, loaded = .error error → error.limit? = none) :
    (∃ config, buildConfig disk options = .ok (.ok config)) ∨
      ∃ error fault, buildConfig disk options = .ok (.error error) ∧ error.fault = .ok fault := by
  rw [buildConfig, bind_of_ok found]
  have told {error : ConfigError} (within : error.limit? = none) :
      ∃ fault, error.fault = .ok fault := by
    simp only [ConfigError.fault, within]
    exact ⟨_, rfl⟩
  cases loaded with
  | error error =>
      obtain ⟨fault, isFault⟩ := told (within error rfl)
      exact .inr ⟨error, fault, rfl, isFault⟩
  | ok config =>
      cases replaced : config.override options.settings with
      | ok final => exact .inl ⟨final, congrArg Except.ok replaced⟩
      | error error =>
          obtain ⟨fault, isFault⟩ := told (Config.limit?_of_ofSettings replaced)
          exact .inr ⟨error, fault, congrArg Except.ok replaced, isFault⟩

/-- The configuration is had, or its fault is told, or reading it ends the program. -/
theorem buildConfig_cases {disk : Disk} {options : Options}
    (decodes : ∀ name, options.config = some (.value name) → disk.Decodes (Path.ofChars name)) :
    (¬options.BreaksConfig disk ∧
        ((∃ config, buildConfig disk options = .ok (.ok config)) ∨
          ∃ error fault, buildConfig disk options = .ok (.error error) ∧
            error.fault = .ok fault)) ∨
      options.BreaksConfig disk ∧
        ((∃ escape, buildConfig disk options = .error escape) ∨
          ∃ error limit, buildConfig disk options = .ok (.error error) ∧
            error.fault = .error limit) := by
  cases config : options.config with
  | none =>
      refine .inl ⟨?_, ?_⟩
      · rintro (absent | ⟨_, absent, _⟩) <;> rw [config] at absent <;> cases absent
      · have found : loadConfig disk options.config = .ok (.ok {}) := by rw [config, loadConfig]
        refine buildConfig_of_within found ?_
        rintro _ ⟨⟩
  | some given =>
      cases given with
      | nothing =>
          refine .inr ⟨.inl config, .inl ⟨.noConfigPath, ?_⟩⟩
          rw [buildConfig, config]
          rfl
      | value name =>
          have breaks : options.BreaksConfig disk ↔
              (Path.ofChars name).HoldsNull ∨ disk.Exceeds (Path.ofChars name) := by
            simp [Options.BreaksConfig, config]
          have asked : loadConfig disk options.config = Config.load disk (Path.ofChars name) := by
            rw [config, loadConfig]
          rw [breaks]
          rcases (decodes name config).readText_cases with
            ⟨unread, null⟩ | ⟨free, ⟨error, unread⟩ | ⟨text, read⟩⟩
          · refine .inr ⟨.inl null, .inl ⟨.nullInPath, ?_⟩⟩
            rw [buildConfig, asked, Config.load, unread]
            rfl
          · refine .inl ⟨?_, ?_⟩
            · rintro (null | exceeds)
              · exact free null
              · exact Disk.not_exceeds_of_error unread exceeds
            · rw [Config.load, unread] at asked
              refine buildConfig_of_within asked ?_
              rintro _ ⟨⟩
              rfl
          · rw [or_iff_right free, Disk.exceeds_iff_of_ok read]
            rw [Config.load, read] at asked
            by_cases exceeds : ∃ error limit, Json.parseChars text = .error error ∧
                error.limit? = some limit
            · obtain ⟨error, limit, parsed, passed⟩ := exceeds
              refine .inr ⟨⟨error, limit, parsed, passed⟩, .inr
                ⟨.notJson (Path.ofChars name).text error, limit, ?_, ?_⟩⟩
              · rw [buildConfig, bind_of_ok asked, Config.ofText, parsed]
                rfl
              · simp only [ConfigError.fault, ConfigError.limit?, passed]
            · refine .inl ⟨exceeds, buildConfig_of_within asked ?_⟩
              intro error failed
              refine Config.limit?_of_ofText failed ?_
              intro issue parsed
              rw [Option.eq_none_iff_forall_ne_some]
              exact fun limit passed => exceeds ⟨issue, limit, parsed, passed⟩

end CommandLine

end LoanCheck
