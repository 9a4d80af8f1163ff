import LoanCheck.Check.Attempt
import LoanCheck.Check.Run

/-!
A checker that is used for one unit after another.  It is changed while a unit is
analysed, and what has been changed stays changed if the analysis is stopped.
-/

namespace LoanCheck

structure Session where
  config : Config
  recordStates : Bool
  /-- What the latest analysis reported. -/
  diagnostics : List Diagnostic := []
  tree : Option ScopeTree := none
  /-- The state that the analysis works on. -/
  state : State := {}
  liveness : Option Liveness := none
  states : Option (List (List (String × OwnershipState))) := none

inductive SessionError where
  /-- The unit cannot be analysed. -/
  | unit (reason : CheckError)
  /-- The analysis was stopped. -/
  | walk (error : WalkError)

/-- The scopes of a unit that is not too large. -/
def CodeUnit.admittedTree (unit : CodeUnit) (config : Config) : Except CheckError ScopeTree := do
  config.admits unit
  match unit.scopeTree with
  | .error (.defect found point loc) => .error (.defect unit.name found point loc)
  | .error (.name error) => .error (.name error)
  | .ok tree => .ok tree

namespace ScopeTree

/-- The end of a unit, as the statement that ends its outermost scope. -/
def ending (tree : ScopeTree) : Resolution :=
  { point := tree.unit.endPoint, scope := rootId, loc := {}, effect := .exit rootId }

/-- What is known of a unit from its scopes. -/
def tryContext (tree : ScopeTree) (config : Config) : Except WalkError Context :=
  if config.precise then (fun liveness => ⟨tree, some liveness⟩) <$> tree.tryLiveness
  else .ok ⟨tree, none⟩

end ScopeTree

namespace Session

/-- Judge statements one after another, as far as possible. -/
def walk (context : Context) : List Resolution → Session → Session × Except WalkError Unit
  | [], session => (session, .ok ())
  | resolution :: rest, session =>
      let advanced := do
        let state ← session.state.tryAdvance context resolution
        context.tree.lookUpPlaces state.places
        return state
      match advanced with
      | .error error => (session, .error error)
      | .ok state =>
          walk context rest { session with
            state
            states := session.states.map fun earlier => earlier ++ [context.snapshot state] }

/-- Judge a unit whose scopes are known. -/
def judge (session : Session) (tree : ScopeTree) :
    Session × Except WalkError (List Diagnostic) :=
  let reset := { session with tree := some tree, state := {} }
  match tree.tryContext session.config with
  | .error error => (reset, .error error)
  | .ok context =>
      let started := { reset with
        liveness := context.liveness
        states := if session.recordStates then some [] else none }
      match walk context tree.resolved started with
      | (walked, .error error) => (walked, .error error)
      | (walked, .ok _) =>
          match walked.state.attempt context tree.ending with
          | .error error => (walked, .error error)
          | .ok state =>
              ({ walked with state, diagnostics := state.diagnostics }, .ok state.diagnostics)

/-- Analyse a unit. -/
def check (session : Session) (unit : CodeUnit) :
    Session × Except SessionError (List Diagnostic) :=
  match unit.admittedTree session.config with
  | .error reason => (session, .error (.unit reason))
  | .ok tree =>
      let (judged, result) := session.judge tree
      (judged, result.mapError .walk)

/-- Analyse one unit after another, whether or not earlier ones could be analysed. -/
def checkAll (session : Session) :
    List CodeUnit → Session × List (Except SessionError (List Diagnostic))
  | [] => (session, [])
  | unit :: rest =>
      let (checked, result) := session.check unit
      let (last, results) := checked.checkAll rest
      (last, result :: results)

def borrows (session : Session) : List Borrow := session.state.ledger.borrows

/-- What borrows are measured against, once a unit has been looked at. -/
def context? (session : Session) : Option Context :=
  session.tree.map fun tree => { tree, liveness := session.liveness }

end Session

end LoanCheck
