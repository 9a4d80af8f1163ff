import LoanCheck.CommandLine.Log
import LoanCheck.CommandLine.Options
import LoanCheck.CommandLine.Report

/-!
The command line as a function of its arguments and the files.

The exit code is two if the configuration or a source could not be read, one if a
unit was not accepted, and zero otherwise.  With `--json` the findings are printed
as data on the standard output, else as lines on the standard error.
-/

namespace LoanCheck.CommandLine

structure Output where
  exitCode : Nat
  stdout : String
  stderr : String
deriving DecidableEq, Repr

/-- How the program ends. -/
inductive Ending where
  | refused (refusal : Refusal)
  | escaped (escape : Escape)
  | finished (output : Output)

def exitAccepted : Nat := 0

def exitRejected : Nat := 1

def exitBadInput : Nat := 2

/-- A line on the standard error: of the log, or a message. -/
inductive ErrorLine where
  | log (line : LogLine)
  | message (text : String)

/-- The text of a line; the log is shown only if it was asked for. -/
def ErrorLine.shown (verbose : Bool) : ErrorLine → String
  | .log line => if verbose then line.text ++ "\n" else ""
  | .message text => text ++ "\n"

/-- End with lines on the standard error, and perhaps data on the standard output. -/
def finish (options : Options) (exitCode : Nat) (data : Option String)
    (lines : List ErrorLine) : Output :=
  { exitCode
    stdout := data.elim "" (· ++ "\n")
    stderr := String.join (lines.map (ErrorLine.shown options.verbose)) }

/-- The settings that the options give. -/
def Options.settings (options : Options) : Settings :=
  { precise := if options.precise then .bool true else .null
    maxStatements := options.maxStatements
    jobs := options.jobs }

/-- The configuration of the file that is named, or the one that holds without a file. -/
def loadConfig (disk : Disk) : Option Given → Except Escape (Except ConfigError Config)
  | none => .ok (.ok {})
  | some .nothing => .error .noConfigPath
  | some (.value path) => Config.load disk (Path.ofChars path)

/-- The configuration of the file, with the options in its place. -/
def buildConfig (disk : Disk) (options : Options) :
    Except Escape (Except ConfigError Config) := do
  let loaded ← loadConfig disk options.config
  return loaded.bind fun config => config.override options.settings

/-- End because there is no configuration. -/
def refuseConfig (options : Options) (fault : Fault) : Output :=
  if options.json then
    finish options exitBadInput (some (payload exitBadInput [] [.obj fault.fields])) []
  else
    let code := fault.code
    finish options exitBadInput none [.message s!"error[{code}]: {fault.message}"]

/-- A source that was read, or what is told of it if it could not be. -/
structure Source where
  path : Path
  program : Except String Program

/-- What is told of a fault in a source. -/
def faultMessage (fault : Fault) : String :=
  let code := fault.code
  s!"[{code}] {fault.message}"

/-- Read a source. -/
def loadSource (disk : Disk) (path : Path) : Except Escape Source :=
  match Program.load disk path with
  | .ok program => .ok ⟨path, .ok program⟩
  | .error (.file error) => .ok ⟨path, .error ("cannot read input: " ++ error.message)⟩
  | .error (.decode error) => .error (.decode error)
  | .error .nullInPath => .error .nullInPath
  | .error (.data error) => do
      let fault ← error.fault.mapError .limit
      return ⟨path, .error (faultMessage fault)⟩
  | .error (.text file error) => .ok ⟨path, .error (faultMessage (error.fault (some file)))⟩

/-- The sources that were read. -/
def loaded (sources : List Source) : List (Path × Program) :=
  sources.filterMap fun source =>
    match source.program with
    | .ok program => some (source.path, program)
    | .error _ => none

/-- The sources that could not be read, with what is told of them. -/
def failures (sources : List Source) : List (Path × String) :=
  sources.filterMap fun source =>
    match source.program with
    | .ok _ => none
    | .error message => some (source.path, message)

/-- What is logged of reading the sources. -/
def readLines (sources : List Source) : List ErrorLine :=
  (loaded sources).flatMap fun (path, program) => (program.readLog path).map .log

/-- End because sources could not be read. -/
def refuseSources (options : Options) (sources : List Source) : Output :=
  if options.json then
    let reports := (failures sources).map fun (path, message) => failureReport path message
    finish options exitBadInput (some (payload exitBadInput [] reports)) (readLines sources)
  else
    let messages := (failures sources).map fun (path, message) =>
      let file := path.text
      ErrorLine.message s!"{file}:?:?: error: {message}"
    finish options exitBadInput none (readLines sources ++ messages)

/-- The findings in one source, with the log of its analysis. -/
structure Findings where
  path : Path
  results : List UnitResult
  log : List LogLine

/-- Analyse the units of a source. -/
def examine (config : Config) (path : Path) (program : Program) : Except NameError Findings := do
  let checked := program.units.map fun unit => (unit, unit.check config false)
  let results ← checked.mapM fun (unit, outcome) => UnitResult.ofCheck unit outcome
  return {
    path
    results
    log := program.checkLog path :: checked.flatMap fun (unit, outcome) => unit.checkLog outcome }

/-- Whether all units of all sources were accepted. -/
def allAccepted (findings : List Findings) : Bool :=
  findings.all fun found => found.results.all UnitResult.accepted

def verdict (findings : List Findings) : Nat :=
  if allAccepted findings then exitAccepted else exitRejected

/-- The reports of all units. -/
def unitReports (findings : List Findings) : List Json :=
  findings.flatMap fun found => found.results.map fun result => result.report found.path

/-- The reports of all diagnostics and faults, unit by unit. -/
def flatReports (findings : List Findings) : List Json :=
  findings.flatMap fun found =>
    found.results.flatMap fun result =>
      result.diagnosticReports found.path ++ result.faultReports found.path

/-- The log of each source, followed by the messages about it if data is not asked for. -/
def findingLines (options : Options) (findings : List Findings) : List ErrorLine :=
  findings.flatMap fun found =>
    found.log.map .log ++
      if options.json then []
      else (found.results.flatMap fun result => result.lines found.path).map .message

/-- End with the findings. -/
def conclude (options : Options) (sources : List Source) (findings : List Findings) : Output :=
  let exitCode := verdict findings
  let data :=
    if options.json then some (payload exitCode (unitReports findings) (flatReports findings))
    else none
  finish options exitCode data (readLines sources ++ findingLines options findings)

/-- Do what the options ask for. -/
def runOptions (disk : Disk) (options : Options) : Except Escape Output := do
  match ← buildConfig disk options with
  | .error error =>
      let fault ← error.fault.mapError .limit
      return refuseConfig options fault
  | .ok config =>
      let paths := options.sources.map Path.ofChars
      let sources ← paths.mapM (loadSource disk)
      if (failures sources).isEmpty then
        let findings ← ((loaded sources).mapM fun (path, program) =>
          examine config path program).mapError .name
        return conclude options sources findings
      else return refuseSources options sources

/-- Run the command line. -/
def run (disk : Disk) (arguments : List String) : Ending :=
  match parse arguments with
  | .error refusal => .refused refusal
  | .ok options =>
      match runOptions disk options with
      | .ok output => .finished output
      | .error escape => .escaped escape

end LoanCheck.CommandLine
