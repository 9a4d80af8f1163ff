import LoanCheck.Fault
import LoanCheck.Json.Reader

/-!
Settings of the analysis.  They come from data and so may be of any type; a
configuration is made of settings that have been checked.
-/

namespace LoanCheck

structure Config where
  /-- End borrows after the last use of their holder, not with its scope. -/
  precise : Bool := false
  /-- The most statements that a unit may have. -/
  maxStatements : Option Nat := none
  /-- How many units may be checked at a time. -/
  jobs : Option Nat := none
deriving DecidableEq, Repr

/-- Settings as they were given; null stands for none. -/
structure Settings where
  precise : Json := .bool false
  maxStatements : Json := .null
  jobs : Json := .null

/-- Why there is no configuration.  Files are named by their paths. -/
inductive ConfigError where
  | precise
  | maxStatements
  | jobs
  | unknown (option : String)
  | unreadable (file reason : String)
  | notJson (file : String) (error : Json.ReadError)
  | notObject (file : String)

namespace ConfigError

def message : ConfigError → String
  | .precise => "precise_borrow_extents must be a boolean"
  | .maxStatements => "max_statements must be a non-negative integer"
  | .jobs => "jobs must be a positive integer"
  | .unknown option => s!"unknown configuration option '{option}'"
  | .unreadable file reason => s!"cannot read config file {file}: {reason}"
  | .notJson file error =>
      let what := error.message
      s!"invalid JSON in config file {file}: {what}"
  | .notObject file => s!"config file {file} must contain a JSON object"

/-- The limit of the data format that was passed, if that is why. -/
def limit? : ConfigError → Option Json.Limit
  | .notJson _ error => error.limit?
  | _ => none

/-- Data that is not read, however well formed it is, is no fault of the configuration. -/
def fault (error : ConfigError) : Except Json.Limit Fault :=
  match error.limit? with
  | some limit => .error limit
  | none => .ok { kind := .configuration, message := error.message }

end ConfigError

/-- Why settings could not be replaced. -/
inductive OverrideError where
  | unknown (setting : String)
  | invalid (error : ConfigError)

def OverrideError.message : OverrideError → String
  | .unknown setting =>
      s!"CheckerConfig.__init__() got an unexpected keyword argument '{setting}'"
  | .invalid error => error.message

/-- An integer that is at least `least`; null is none. -/
def Settings.bounded (least : Nat) (error : ConfigError) : Json → Except ConfigError (Option Nat)
  | .null => .ok none
  | .int value => if (least : Int) ≤ value then .ok (some value.toNat) else .error error
  | _ => .error error

namespace Config

/-- Check settings, in their order. -/
def ofSettings (settings : Settings) : Except ConfigError Config := do
  let precise ←
    match settings.precise with
    | .bool value => .ok value
    | _ => .error .precise
  let maxStatements ← Settings.bounded 0 .maxStatements settings.maxStatements
  let jobs ← Settings.bounded 1 .jobs settings.jobs
  return { precise, maxStatements, jobs }

def settings (config : Config) : Settings :=
  { precise := .bool config.precise
    maxStatements := .ofNat? config.maxStatements
    jobs := .ofNat? config.jobs }

/-- Store one option of a configuration file, in either spelling. -/
def setOption (settings : Settings) (option : String) (value : Json) :
    Except ConfigError Settings :=
  match option with
  | "precise_borrow_extents" | "preciseBorrowExtents" => .ok { settings with precise := value }
  | "max_statements" | "maxStatements" => .ok { settings with maxStatements := value }
  | "jobs" => .ok { settings with jobs := value }
  | option => .error (.unknown option)

def ofFields (fields : List (String × Json)) : Except ConfigError Config := do
  let settings ← fields.foldlM (fun settings (option, value) => setOption settings option value) {}
  ofSettings settings

/-- Read the text of a configuration file. -/
def ofText (file : String) (text : List Char) : Except ConfigError Config :=
  match Json.parseChars text with
  | .error error => .error (.notJson file error)
  | .ok (.obj fields) => ofFields fields
  | .ok _ => .error (.notObject file)

/-- A setting that is given in place of another. -/
def replaced (given old : Json) : Json :=
  match given with
  | .null => old
  | given => given

/-- Replace the settings that are given. -/
def override (config : Config) (given : Settings) : Except ConfigError Config :=
  let old := config.settings
  ofSettings
    { precise := replaced given.precise old.precise
      maxStatements := replaced given.maxStatements old.maxStatements
      jobs := replaced given.jobs old.jobs }

/-- Store a setting by its name. -/
def setSetting? (settings : Settings) (name : String) (value : Json) : Option Settings :=
  match name with
  | "precise_borrow_extents" => some { settings with precise := value }
  | "max_statements" => some { settings with maxStatements := value }
  | "jobs" => some { settings with jobs := value }
  | _ => none

/-- Replace settings by their names.  Null replaces nothing, whatever its name. -/
def overrideFields (config : Config) (given : List (String × Json)) :
    Except OverrideError Config := do
  let settings ← given.foldlM (fun settings (name, value) =>
    match value, setSetting? settings name value with
    | .null, _ => .ok settings
    | _, some settings => .ok settings
    | _, none => .error (.unknown name)) config.settings
  (ofSettings settings).mapError .invalid

end Config

end LoanCheck
