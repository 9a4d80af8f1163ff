import LoanCheck.Span

/-!
Fatal errors: defects of the input, or a guard that refuses it.  A fault stops
the analysis of a unit, which then has no diagnostics.
-/

namespace LoanCheck

inductive FaultKind where
  | malformedProgram
  | unbalancedScope
  | unitTooLarge
  | malformedText
  | configuration
deriving DecidableEq, Repr

/-- The stable code of a kind of fault. -/
def FaultKind.code : FaultKind → String
  | .malformedProgram => "E-MALFORMED-PROGRAM"
  | .unbalancedScope => "E-UNBALANCED-SCOPE"
  | .unitTooLarge => "E-UNIT-TOO-LARGE"
  | .malformedText => "E-IR-SYNTAX"
  | .configuration => "E-CONFIG"

structure Fault where
  kind : FaultKind
  message : String
  point : Option Int := none
  place : Json := .null
  unit : Option String := none
  span : Option Span := none
deriving Repr

namespace Fault

def code (fault : Fault) : String := fault.kind.code

/-- The fields of a fault in reports. -/
def fields (fault : Fault) : List (String × Json) :=
  let span := fault.span.getD {}
  [("reason_code", .str fault.code),
    ("message", .str fault.message),
    ("point", .ofOption .int fault.point),
    ("place", fault.place),
    ("unit", .ofString? fault.unit),
    ("file", .ofString? span.file),
    ("line", .ofOption .int span.line),
    ("column", .ofOption .int span.column)]

/-- The lines of a fault for a reader; unknown parts are left out. -/
def humanLines (fault : Fault) : List String :=
  let code := fault.code
  [s!"[{code}] {fault.message}"] ++
    (match fault.unit with
      | some unit => ["unit: " ++ unit]
      | none => []) ++
    (match fault.point with
      | some point => ["point: " ++ Span.number point]
      | none => []) ++
    (match fault.span with
      | some span => if span.isKnown then ["at: " ++ span.text] else []
      | none => [])

def human (fault : Fault) : String :=
  "\n".intercalate fault.humanLines

end Fault

end LoanCheck
