import LoanCheck.Check.State

/-!
The transition of each statement.  Ownership, borrows and lifetimes are judged in
one walk, because whether a borrow is valid depends on ownership at each point.
-/

namespace LoanCheck

namespace State

variable (context : Context) (state : State)

/-- Use an operand: an escaped one is reported, and the result tells whether it can
be used as usual. -/
def liveUse (source : Use) (point : Point) (span : Span) : State × Bool :=
  if source.escaped then (escapedUse context state source.place point span, false)
  else (state, true)

/-- Move the value out of a place, which must not be borrowed unless it is copied. -/
def consumeSource (place : PlaceId) (point : Point) (span : Span) (action : String) : State :=
  let (state, owned) := requireOwned context state place point action span
  let state :=
    match owned, state.ledger.activeOn place with
    | true, borrow :: _ =>
        if (state.ownership.record context.tree place).copy.isTrue then state
        else
          let name := context.tree.name place
          state.reportBorrow context.tree (.movedWhileBorrowed name) point name borrow span
    | _, _ => state
  { state with ownership := state.ownership.moveOut context.tree place }

/-- Drop a place: end what it keeps, then judge what borrows it. -/
def dropPlace (place : PlaceId) (point : Point) (span : Span) : State :=
  let state := checkDrop context (state.retireHeldBy place point) place point span
  { state with ownership := state.ownership.drop context.tree place }

/-- The old value of a place is replaced, so it must not be borrowed. -/
def overwrite (place : PlaceId) (point : Point) (span : Span) : State :=
  let checked :=
    match state.ledger.activeOn place with
    | [] => state
    | borrow :: _ =>
        let name := context.tree.name place
        state.reportBorrow context.tree (.assignedWhileBorrowed name) point name borrow span
  checked.retireHeldBy place point

/-- What is told of the first borrow of a place that is bound again. -/
def borrowNotes (place : PlaceId) : List String :=
  match state.ledger.activeOn place with
  | [] => []
  | borrow :: _ =>
      let shown := context.tree.named place
      Ledger.notes context.tree borrow ++ [s!"{shown} is still borrowed here"]

/-- Declare a new place; the one it shadows is dropped. -/
def declareFresh (place : PlaceId) (shadowed : Option PlaceId) (point : Point) (span : Span) :
    State :=
  let state :=
    match shadowed with
    | some old => dropPlace context state old point span
    | none => state
  { state with ownership := state.ownership.declare context.tree place }

/-- Give the target of a move or borrow its value. -/
def assignTarget (target : Target) (point : Point) (span : Span) : State :=
  match target with
  | .fresh place shadowed _ =>
      let state := declareFresh context state place shadowed point span
      { state with ownership := state.ownership.fill context.tree place }
  | .existing place =>
      (assignPlace context (overwrite context state place point span) place point span).1

/-- Give the target of a bind its value under new flags. -/
def rebindTarget (target : Target) (mutable copy : Flag) (point : Point) (span : Span) : State :=
  let (state, notes) :=
    match target with
    | .fresh place shadowed rebinds =>
        let state :=
          match shadowed with
          | some old =>
              if rebinds && state.ownership.stateOf context.tree old == .owned then
                reportDuplicate context state old point span (borrowNotes context state old)
              else state
          | none => state
        (declareFresh context state place shadowed point span, [])
    | .existing place =>
        if state.ownership.stateOf context.tree place == .owned then
          (state.retireHeldBy place point, borrowNotes context state place)
        else (state, [])
  (bindPlace context state target.place point mutable copy target.declares span notes).1

/-- Take the value of a source; the result tells whether a reference was taken. -/
def takeSource (source : Use) (point : Point) (span : Span) : State × Bool :=
  let (state, live) := liveUse context state source point span
  if live then
    (consumeSource context state source.place point span "move",
      context.tree.holdsReference source.place)
  else (state, false)

def bind (target : Target) (source : Option Use) (mutable copy : Flag) (point : Point)
    (span : Span) : State :=
  let (state, movesReference) :=
    match source with
    | some source => takeSource context state source point span
    | none => (state, false)
  let state := rebindTarget context state target mutable copy point span
  match movesReference, source with
  | true, some source => transfer context state source.place target.place
  | _, _ => state

def move (target : Target) (source : Use) (point : Point) (span : Span) : State :=
  let (state, movesReference) := takeSource context state source point span
  let state := assignTarget context state target point span
  if movesReference then transfer context state source.place target.place else state

/-- The referent must have its value, and be mutable for an exclusive borrow. -/
def checkReferent (kind : BorrowKind) (place : PlaceId) (point : Point) (span : Span) : State :=
  let (state, _) := requireOwned context state place point "borrow" span
  if kind = .exclusive ∧ !state.ownership.isMutable context.tree place then
    let name := context.tree.name place
    state.reportPlace (.exclusiveOfImmutable name) point name span
  else state

def borrow (kind : BorrowKind) (target : Target) (source : Use) (point : Point) (span : Span) :
    State :=
  let (state, live) := liveUse context state source point span
  let state := if live then checkReferent context state kind source.place point span else state
  let state := assignTarget context state target point span
  if live then lend context state source.place kind target.place point span else state

def read (source : Use) (point : Point) (span : Span) : State :=
  let (state, live) := liveUse context state source point span
  if live then (requireOwned context state source.place point "read" span).1 else state

/-- Write through one borrow: it must be exclusive, and the only one of its referent. -/
def writeThroughBorrow (holder : PlaceId) (point : Point) (span : Span) (borrow : Borrow) :
    State :=
  let tree := context.tree
  let name := tree.name holder
  match borrow.kind with
  | .shared =>
      state.reportBorrow tree (.writtenThroughShared name) point name borrow span
  | .exclusive =>
      match (state.ledger.activeOn borrow.referent).filter fun other => other.id != borrow.id with
      | [] => state
      | other :: _ =>
          state.reportBorrow tree (.writtenThroughContested name (tree.name borrow.referent))
            point name other span

/-- Write to a place that has its value. -/
def writeOwned (place : PlaceId) (point : Point) (span : Span) : State :=
  let name := context.tree.name place
  let isReference := context.tree.holdsReference place
  let state :=
    if !isReference && !state.ownership.isMutable context.tree place then
      state.reportPlace (.writtenImmutable name) point name span
    else state
  match state.ledger.activeOn place with
  | borrow :: _ =>
      let violation : Violation :=
        if isReference then .writtenThroughWhileBorrowed name else .writtenWhileBorrowed name
      state.reportBorrow context.tree violation point name borrow span
  | [] =>
      if isReference then
        (state.ledger.heldBy place).foldl
          (fun state borrow => writeThroughBorrow context state place point span borrow) state
      else state

def write (source : Use) (point : Point) (span : Span) : State :=
  let (state, live) := liveUse context state source point span
  if live then
    let (state, owned) := requireOwned context state source.place point "write to" span
    if owned then writeOwned context state source.place point span else state
  else state

/-- A callee keeps no reference past the call. -/
def consume (source : Use) (point : Point) (span : Span) : State :=
  let (state, live) := liveUse context state source point span
  if live then
    (consumeSource context state source.place point span "consume").retireHeldBy source.place
      (point + 1)
  else state

/-- End a scope.  Its places stop keeping borrows together, and are then dropped, the
last one first. -/
def exitScope (scope : ScopeId) (point : Point) (span : Span) : State :=
  let live := (context.tree.placesOf scope).filter fun place =>
    state.ownership.stateOf context.tree place != .dropped
  let state := live.foldl (fun state place => state.retireHeldBy place point) state
  live.reverse.foldl (fun state place => dropPlace context state place point span) state

/-- Make the transition of a statement. -/
def step (resolution : Resolution) : State :=
  let point := resolution.point
  let span := resolution.loc
  match resolution.effect with
  | .enter => state
  | .exit closes => exitScope context state closes point span
  | .bind target source mutable copy => bind context state target source mutable copy point span
  | .declare target =>
      declareFresh context state target.place target.shadowed? point span
  | .move target source => move context state target source point span
  | .borrow kind target source => borrow context state kind target source point span
  | .write source => write context state source point span
  | .read source => read context state source point span
  | .consume source => consume context state source point span

/-- Where last uses are known, end the borrows whose holder is not used any more. -/
def retireDead (point : Point) : State :=
  match context.liveness with
  | none => state
  | some liveness =>
      let dead := state.ledger.active.filter fun borrow =>
        !liveness.liveAfter borrow.holder point
      { state with
        ledger := state.ledger.retireAll (dead.map Borrow.id) (point + 1) }

end State

end LoanCheck
