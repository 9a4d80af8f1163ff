import LoanCheck.Diagnostic
import LoanCheck.Loan.Lifetime
import LoanCheck.Ownership

/-!
The state of the analysis and the rules it applies.  A rule that is broken is
reported, and the change is made all the same, so later statements are judged
against a consistent state.
-/

namespace LoanCheck

/-- What is known of a unit before its statements are judged.  Last uses are known
only if borrows end with them. -/
structure Context where
  tree : ScopeTree
  liveness : Option Liveness

structure State where
  ownership : Ownership := []
  ledger : Ledger := {}
  /-- References whose use after their scope has been reported. -/
  escapes : List PlaceId := []
  diagnostics : List Diagnostic := []

namespace State

/-- Report a violation. -/
def report (state : State) (violation : Violation) (point : Point) (place : Name)
    (borrow : Option BorrowId) (span : Span) (notes : List String) : State :=
  { state with
    diagnostics := state.diagnostics ++
      [{ kind := violation.kind, message := violation.message, point, place, borrow, span,
         notes }] }

/-- Report a violation that is about one place and no borrow. -/
def reportPlace (state : State) (violation : Violation) (point : Point) (place : Name)
    (span : Span) : State :=
  state.report violation point place none span []

/-- Report a violation that a borrow explains. -/
def reportBorrow (state : State) (tree : ScopeTree) (violation : Violation) (point : Point)
    (place : Name) (borrow : Borrow) (span : Span) : State :=
  state.report violation point place (some borrow.id) span (Ledger.notes tree borrow)

variable (context : Context) (state : State)

/-- Whether a place has its value, reported if not.  `action` is the verb for it. -/
def requireOwned (place : PlaceId) (point : Point) (action : String) (span : Span) :
    State × Bool :=
  let name := context.tree.name place
  match state.ownership.stateOf context.tree place with
  | .movedOut => (state.reportPlace (.movedOut action name) point name span, false)
  | .uninitialized => (state.reportPlace (.notInitialized action name) point name span, false)
  | .owned => (state, true)
  | .dropped => (state, true)

/-- A name that still owns a value was bound again in its scope. -/
def reportDuplicate (place : PlaceId) (point : Point) (span : Span) (notes : List String) :
    State :=
  let name := context.tree.name place
  let declared := context.tree.declaredAt place
  state.report (.alreadyBound name) point name none span
    (s!"previous binding declared at point {declared}" :: notes)

/-- Bind a place.  A place that is used again and still owns a value is a duplicate;
the result tells whether it was. -/
def bindPlace (place : PlaceId) (point : Point) (mutable copy : Flag) (fresh : Bool)
    (span : Span) (notes : List String) : State × Bool :=
  let clobbered := !fresh && state.ownership.stateOf context.tree place == .owned
  let state := if clobbered then reportDuplicate context state place point span notes else state
  ({ state with ownership := state.ownership.rebind place mutable copy }, clobbered)

/-- Store a new value in a place that already exists.  It must be mutable, unless it
never had a value; the result tells whether it still had one. -/
def assignPlace (place : PlaceId) (point : Point) (span : Span) : State × Bool :=
  let record := state.ownership.record context.tree place
  let name := context.tree.name place
  let state :=
    if record.state ≠ .uninitialized ∧ !record.mutable.isTrue then
      state.reportPlace (.assignedTwice name) point name span
    else state
  ({ state with ownership := state.ownership.fill context.tree place },
    record.state == .owned)

/-- Take a borrow.  A conflict is reported, and then there is no new borrow. -/
def lend (referent : PlaceId) (kind : BorrowKind) (holder : PlaceId) (point : Point)
    (span : Span) : State :=
  match state.ledger.conflict? referent kind with
  | some conflict =>
      let name := context.tree.name referent
      let violation : Violation :=
        match kind with
        | .shared => .sharedWhileExclusive name
        | .exclusive => .exclusiveWhileBorrowed name
      state.reportBorrow context.tree violation point (context.tree.name holder) conflict span
  | none =>
      { state with
        ledger := state.ledger.lend context.tree referent kind holder point span }

def retireHeldBy (holder : PlaceId) (point : Point) : State :=
  { state with ledger := state.ledger.retireHeldBy holder point }

def transfer (source dest : PlaceId) : State :=
  { state with ledger := state.ledger.transfer context.tree source dest }

/-- Report a borrow whose referent is dropped, and end it. -/
def reportOutliving (place : PlaceId) (point : Point) (span : Span) (borrow : Borrow) : State :=
  let tree := context.tree
  let referent := tree.named place
  let holder := tree.named borrow.holder
  let reported := state.report
    (.outlivedReferent (tree.name place) (tree.name borrow.holder)) point
    (tree.name borrow.holder) (some borrow.id) span
    (Ledger.notes tree borrow ++ [s!"{referent} dropped here while {holder} is still alive"])
  { reported with ledger := (state.ledger.markDangling borrow.id).retire borrow.id point }

/-- A place is dropped: every borrow of it that is still active outlives it. -/
def checkDrop (place : PlaceId) (point : Point) (span : Span) : State :=
  (state.ledger.activeOn place).foldl
    (fun state borrow => reportOutliving context state place point span borrow) state

/-- A reference is used after its own scope.  Each one is reported once, and not at
all if a borrow that it kept has been reported. -/
def escapedUse (holder : PlaceId) (point : Point) (span : Span) : State :=
  if state.escapes.contains holder then state
  else
    let state := { state with escapes := holder :: state.escapes }
    let history := state.ledger.everHeldBy holder
    if history.any Borrow.dangling then state
    else
      let tree := context.tree
      let name := tree.name holder
      let shown := tree.named holder
      let ended := tree.exitPoint (tree.scopeOf holder)
      let note := s!"{shown} went out of scope at point {ended}"
      match history.getLast? with
      | none => state.report (.usedAfterScope name) point name none span [note]
      | some last =>
          { state with ledger := state.ledger.markDangling last.id }.report
            (.usedAfterScope name) point name (some last.id) span
            (Ledger.notes tree last ++ [note])

end State

end LoanCheck
