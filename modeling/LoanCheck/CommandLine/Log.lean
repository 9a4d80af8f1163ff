import LoanCheck.Check.Run
import LoanCheck.File.Source

/-!
What the stages of the analysis tell about their work, line by line.
-/

namespace LoanCheck

/-- A line of the log, with the stage it comes from. -/
structure LogLine where
  stage : String
  message : String
deriving DecidableEq, Repr

def LogLine.text (line : LogLine) : String :=
  s!"DEBUG borrowck.{line.stage}: {line.message}"

/-- A text has been read; reading data is not told. -/
def Program.readLog (program : Program) (path : Path) : List LogLine :=
  if path.isData then []
  else
    let count := program.units.length
    let file := path.text
    [⟨"ir_text", s!"parsed {count} unit(s) from {file}"⟩]

/-- A program is about to be analysed. -/
def Program.checkLog (program : Program) (path : Path) : LogLine :=
  let count := program.units.length
  let file := path.text
  ⟨"driver", s!"checking {file} ({count} unit(s))"⟩

def Diagnostic.log (diagnostic : Diagnostic) : LogLine :=
  let code := diagnostic.code
  let point := Span.number diagnostic.point
  ⟨"core.diagnostics", s!"diagnostic {code} at point {point}: {diagnostic.message}"⟩

/-- The analysis of a unit has finished. -/
def Outcome.log (outcome : Outcome) (unit : CodeUnit) : List LogLine :=
  let scopes := outcome.context.tree.scopes.length
  let places := outcome.context.tree.places.length
  let size := unit.statements.length
  let extents := if outcome.context.liveness.isSome then "precise" else "lexical"
  let count := outcome.diagnostics.length
  [⟨"scopes", s!"unit {unit.name}: {scopes} scope(s), {places} place(s)"⟩,
    ⟨"checker", s!"checking unit {unit.name} ({size} statements, {extents} extents)"⟩] ++
    outcome.diagnostics.map Diagnostic.log ++
    [⟨"checker", s!"unit {unit.name}: {count} diagnostic(s)"⟩]

/-- The analysis of a unit was refused. -/
def Fault.log (fault : Fault) (unit : CodeUnit) : LogLine :=
  let code := fault.code
  ⟨"checker", s!"unit {unit.name} rejected: {code}"⟩

/-- The log of an analysis, whatever came of it. -/
def CodeUnit.checkLog (unit : CodeUnit) : Except CheckError Outcome → List LogLine
  | .ok outcome => outcome.log unit
  | .error error =>
      match error.fault with
      | .ok fault => [fault.log unit]
      | .error _ => []

end LoanCheck
