import LoanCheck.Check.Run
import LoanCheck.File.Path
import LoanCheck.Json.Writer

/-!
What is printed about the units of a file: lines for a reader, or data.  Where the
place of something in the source is unknown, the file stands for it.
-/

namespace LoanCheck

/-- Name the file in a report that names none. -/
def nameFile (source : Path) (fields : List (String × Json)) : List (String × Json) :=
  fields.map fun (key, value) =>
    match key, value with
    | "file", .null => (key, .str source.text)
    | key, value => (key, value)

/-- A place in the source, or the file alone. -/
def shownPlace (source : Path) (span : Option Span) : String :=
  match span with
  | some span => if span.isKnown then span.text else source.text ++ ":?:?"
  | none => source.text ++ ":?:?"

def Diagnostic.report (diagnostic : Diagnostic) (unit : String) (source : Path) : Json :=
  .obj (nameFile source diagnostic.fields ++ [("unit", .str unit)])

def Fault.report (fault : Fault) (source : Path) : Json :=
  .obj (nameFile source fault.fields ++ [("severity", .str "error")])

namespace UnitResult

/-- The reports of the diagnostics. -/
def diagnosticReports (result : UnitResult) (source : Path) : List Json :=
  result.diagnostics.map fun diagnostic => diagnostic.report result.unit source

/-- The report of the fault, if there is one. -/
def faultReports (result : UnitResult) (source : Path) : List Json :=
  match result.fault with
  | some fault => [fault.report source]
  | none => []

def report (result : UnitResult) (source : Path) : Json :=
  .obj [("unit", .str result.unit),
    ("file", .str source.text),
    ("accepted", .bool result.accepted),
    ("error", .ofOption (fun fault => Fault.report fault source) result.fault),
    ("diagnostics", .arr (result.diagnosticReports source))]

/-- The lines of a diagnostic and its notes. -/
def diagnosticLines (result : UnitResult) (source : Path) (diagnostic : Diagnostic) :
    List String :=
  let place := shownPlace source (some diagnostic.span)
  let code := diagnostic.code
  let point := Span.number diagnostic.point
  s!"{place}: error[{code}] in unit '{result.unit}' at point {point}: {diagnostic.message}" ::
    diagnostic.notes.map ("  note: " ++ ·)

/-- The lines about a unit. -/
def lines (result : UnitResult) (source : Path) : List String :=
  match result.fault with
  | some fault =>
      let place := shownPlace source fault.span
      let code := fault.code
      [s!"{place}: error[{code}] in unit '{result.unit}': {fault.message}"]
  | none => result.diagnostics.flatMap (result.diagnosticLines source)

end UnitResult

/-- What is printed as data: the exit code, the units and everything found in them. -/
def payload (exitCode : Nat) (units diagnostics : List Json) : String :=
  (Json.obj [("exit_code", .nat exitCode), ("units", .arr units),
    ("diagnostics", .arr diagnostics)]).write .line

/-- The report of a file that could not be read. -/
def failureReport (source : Path) (message : String) : Json :=
  .obj [("phase", .str "input"), ("message", .str message), ("severity", .str "error"),
    ("file", .str source.text), ("line", .null), ("column", .null)]

end LoanCheck
