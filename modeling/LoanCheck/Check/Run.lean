import LoanCheck.Check.Step
import LoanCheck.Config
import LoanCheck.Scope.Resolve

/-!
The analysis of a whole unit: one walk over its statements, after which the
outermost scope ends.  Defects of the structure and the limit on statements are
fatal and are found before anything is reported.
-/

namespace LoanCheck

namespace Context

/-- What is known of a unit from its scopes. -/
def ofTree (config : Config) (tree : ScopeTree) : Context :=
  { tree, liveness := if config.precise then some tree.liveness else none }

/-- The state after a statement. -/
def advance (context : Context) (state : State) (resolution : Resolution) : State :=
  (state.step context resolution).retireDead context resolution.point

/-- The states after each of the statements. -/
def trace (context : Context) (state : State) : List Resolution → List State
  | [] => []
  | resolution :: rest =>
      let next := context.advance state resolution
      next :: context.trace next rest

/-- The state after all statements. -/
def walk (context : Context) (state : State) (resolved : List Resolution) : State :=
  resolved.foldl context.advance state

/-- The state after the unit has ended. -/
def run (context : Context) : State :=
  (context.walk {} context.tree.resolved).exitScope context ScopeTree.rootId
    context.tree.unit.endPoint {}

/-- The live places of a state, by name and identifier. -/
def snapshot (context : Context) (state : State) : List (String × OwnershipState) :=
  state.ownership.live.map fun (place, held) =>
    let name := (context.tree.name place).display
    (s!"{name}#{place}", held)

/-- The live places after each statement. -/
def snapshots (context : Context) : List (List (String × OwnershipState)) :=
  (context.trace {} context.tree.resolved).map context.snapshot

end Context

/-- Why a unit could not be analysed. -/
inductive CheckError where
  | tooLarge (unit : String) (size limit : Nat)
  | defect (unit : String) (defect : ScopeDefect) (point : Point) (loc : Option Span)
  | name (error : NameError)

/-- A value that cannot be a name is no fault of the program's structure. -/
def CheckError.fault : CheckError → Except NameError Fault
  | .tooLarge unit size limit =>
      .ok {
        kind := .unitTooLarge
        message := s!"unit has {size} statements; the limit is {limit}"
        unit := some unit }
  | .defect unit found point loc => .ok (found.fault unit point loc)
  | .name error => .error error

/-- The limit on statements. -/
def Config.admits (config : Config) (unit : CodeUnit) : Except CheckError PUnit :=
  match config.maxStatements with
  | none => .ok ⟨⟩
  | some limit =>
      if limit < unit.statements.length then
        .error (.tooLarge unit.name unit.statements.length limit)
      else .ok ⟨⟩

/-- A finished analysis. -/
structure Outcome where
  context : Context
  final : State
  /-- The live places after each statement, if they were asked for. -/
  states : Option (List (List (String × OwnershipState)))

namespace Outcome

def diagnostics (outcome : Outcome) : List Diagnostic := outcome.final.diagnostics

def borrows (outcome : Outcome) : List Borrow := outcome.final.ledger.borrows

end Outcome

/-- Analyse a unit. -/
def CodeUnit.check (unit : CodeUnit) (config : Config) (recordStates : Bool) :
    Except CheckError Outcome := do
  config.admits unit
  match unit.scopeTree with
  | .error (.defect found point loc) => .error (.defect unit.name found point loc)
  | .error (.name error) => .error (.name error)
  | .ok tree =>
      let context := Context.ofTree config tree
      return {
        context
        final := context.run
        states := if recordStates then some context.snapshots else none }

/-- What is reported of a unit: diagnostics, or the fault that stopped it. -/
structure UnitResult where
  unit : String
  diagnostics : List Diagnostic := []
  fault : Option Fault := none
  borrows : List Borrow := []
  states : Option (List (List (String × OwnershipState))) := none

namespace UnitResult

def accepted (result : UnitResult) : Bool :=
  result.fault.isNone && result.diagnostics.isEmpty

/-- How many diagnostics there are of a kind. -/
def count (result : UnitResult) (kind : DiagnosticKind) : Nat :=
  result.diagnostics.countP fun diagnostic => diagnostic.kind = kind

/-- What is reported of an analysis; a fault is part of the result. -/
def ofCheck (unit : CodeUnit) : Except CheckError Outcome → Except NameError UnitResult
  | .ok outcome =>
      .ok {
        unit := unit.name
        diagnostics := outcome.diagnostics
        borrows := outcome.borrows
        states := outcome.states }
  | .error error => do
      let fault ← error.fault
      return { unit := unit.name, fault := some fault }

end UnitResult

/-- Analyse a unit and report what was found. -/
def CodeUnit.analyse (unit : CodeUnit) (config : Config) (recordStates : Bool) :
    Except NameError UnitResult :=
  UnitResult.ofCheck unit (unit.check config recordStates)

/-- Analyse the units of a program, in order. -/
def Program.analyse (program : Program) (config : Config) :
    Except NameError (List UnitResult) :=
  program.units.mapM fun unit => unit.analyse config false

end LoanCheck
