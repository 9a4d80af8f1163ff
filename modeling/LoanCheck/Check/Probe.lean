import LoanCheck.Check.State

/-!
Single rules tried on a state by hand, outside any statement.  Places and borrows
are then named by number and need not exist; asking for one that does not is an
error, and what was done before the number was needed stays done.
-/

namespace LoanCheck

/-- A rule or question, with the numbers it is about. -/
inductive Probe where
  | declare (place : PlaceId)
  | fill (place : PlaceId)
  | moveOut (place : PlaceId)
  | drop (place : PlaceId)
  | state (place : PlaceId)
  | record (place : PlaceId)
  | isMutable (place : PlaceId)
  | require (place : PlaceId) (point : Point) (action : String) (span : Span)
  | bind (place : PlaceId) (point : Point) (mutable copy : Flag) (fresh : Bool) (span : Span)
      (notes : List String)
  | duplicate (place : PlaceId) (point : Point) (span : Span) (notes : List String)
  | assign (place : PlaceId) (point : Point) (span : Span)
  | borrow (referent : PlaceId) (kind : BorrowKind) (holder : PlaceId) (point : Point)
      (span : Span)
  | retire (borrow : BorrowId) (point : Point)
  | retireHeldBy (holder : PlaceId) (point : Point)
  | transfer (source dest : PlaceId)
  | activeOn (place : PlaceId)
  | heldBy (holder : PlaceId)
  | everHeldBy (holder : PlaceId)
  | notes (borrow : BorrowId)
  | show (borrow : BorrowId)
  | life (borrow : BorrowId)
  | checkDrop (place : PlaceId) (point : Point) (span : Span)
  | escapedUse (place : PlaceId) (point : Point) (span : Span)

/-- The extents of a borrow. -/
structure BorrowLife where
  extent : Extent
  required : Extent
  referent : Extent
  within : Bool

def Borrow.life (borrow : Borrow) (context : Context) : BorrowLife :=
  { extent := borrow.extent context.tree context.liveness
    required := borrow.requiredExtent context.tree context.liveness
    referent := borrow.referentLifetime context.tree
    within := borrow.isWithin context.tree context.liveness }

inductive ProbeAnswer where
  | done
  | bool (value : Bool)
  | flag (value : Flag)
  | count (value : Nat)
  | state (value : OwnershipState)
  | record (value : OwnershipRecord)
  | ids (value : List BorrowId)
  | lines (value : List String)
  | borrow (value : Borrow)
  | life (value : BorrowLife)

/-- There is no place or borrow with a number. -/
inductive ProbeError where
  | outOfRange
deriving DecidableEq, Repr

def ProbeError.message : ProbeError → String
  | .outOfRange => "list index out of range"

namespace Probe

/-- The state after a probe, and its answer. -/
abbrev Result := State × Except ProbeError ProbeAnswer

def missing (state : State) : Result := (state, .error .outOfRange)

def ids (borrows : List Borrow) : ProbeAnswer :=
  .ids (borrows.map Borrow.id)

variable (context : Context) (state : State)

def hasPlace (place : PlaceId) : Bool :=
  (context.tree.places[place]?).isSome

/-- Apply a rule to a place that has to exist; its record is made if it has none. -/
def onPlace (place : PlaceId) (rule : State → State × ProbeAnswer) : Result :=
  if hasPlace context place then
    let touched :=
      { state with ownership := state.ownership.touch context.tree place }
    let (state, answer) := rule touched
    (state, .ok answer)
  else missing state

/-- Ask something of a borrow that has to exist. -/
def onBorrow (id : BorrowId) (rule : Borrow → Result) : Result :=
  match state.ledger.borrows[id]? with
  | some found => rule found
  | none => missing state

/-- Change the ownership of a place. -/
def onOwnership (place : PlaceId) (rule : Ownership → Ownership) : Result :=
  onPlace context state place fun state =>
    ({ state with ownership := rule state.ownership }, .done)

/-- Take a borrow.  The referent is needed only to show a conflict. -/
def takeBorrow (referent : PlaceId) (kind : BorrowKind) (holder : PlaceId) (point : Point)
    (span : Span) : Result :=
  let conflict := state.ledger.conflict? referent kind
  if !hasPlace context holder || (conflict.isSome && !hasPlace context referent) then
    missing state
  else
    let after := state.lend context referent kind holder point span
    match conflict, after.ledger.borrows.getLast? with
    | none, some taken => (after, .ok (.borrow taken))
    | _, _ => (after, .ok .done)

/-- Pass on what a place keeps.  It is let go before its new holder is looked at. -/
def passOn (source dest : PlaceId) : Result :=
  if source = dest then (state, .ok .done)
  else if hasPlace context dest then (state.transfer context source dest, .ok .done)
  else missing { state with ledger := state.ledger.release source }

/-- Use a reference after its scope.  It counts as reported before it is looked at,
and its borrow as dangling before that is shown. -/
def useEscaped (holder : PlaceId) (point : Point) (span : Span) : Result :=
  let after := state.escapedUse context holder point span
  let history := state.ledger.everHeldBy holder
  if state.escapes.contains holder || history.any Borrow.dangling then (after, .ok .done)
  else if !hasPlace context holder then
    missing { state with escapes := after.escapes }
  else
    match history.getLast? with
    | some last =>
        if hasPlace context last.referent then (after, .ok .done)
        else missing { state with escapes := after.escapes, ledger := after.ledger }
    | none => (after, .ok .done)

/-- Apply a probe. -/
def apply : Probe → Result
  | .declare place =>
      onOwnership context state place fun ownership => ownership.declare context.tree place
  | .fill place =>
      onOwnership context state place fun ownership => ownership.fill context.tree place
  | .moveOut place =>
      onOwnership context state place fun ownership => ownership.moveOut context.tree place
  | .drop place =>
      onPlace context state place fun state =>
        ({ state with ownership := state.ownership.drop context.tree place },
          .state (state.ownership.stateOf context.tree place))
  | .state place =>
      onPlace context state place fun state =>
        (state, .state (state.ownership.stateOf context.tree place))
  | .record place =>
      onPlace context state place fun state =>
        (state, .record (state.ownership.record context.tree place))
  | .isMutable place =>
      onPlace context state place fun state =>
        (state, .flag (state.ownership.record context.tree place).mutable)
  | .require place point action span =>
      onPlace context state place fun state =>
        let (state, owned) := state.requireOwned context place point action span
        (state, .bool owned)
  | .bind place point mutable copy fresh span lines =>
      onPlace context state place fun state =>
        let (state, clobbered) :=
          state.bindPlace context place point mutable copy fresh span lines
        (state, .bool clobbered)
  | .duplicate place point span lines =>
      if hasPlace context place then
        (state.reportDuplicate context place point span lines, .ok .done)
      else missing state
  | .assign place point span =>
      onPlace context state place fun state =>
        let (state, clobbered) := state.assignPlace context place point span
        (state, .bool clobbered)
  | .borrow referent kind holder point span =>
      takeBorrow context state referent kind holder point span
  | .retire id point =>
      onBorrow state id fun _ =>
        ({ state with ledger := state.ledger.retire id point }, .ok .done)
  | .retireHeldBy holder point =>
      (state.retireHeldBy holder point, .ok (.ids (state.ledger.heldIds holder)))
  | .transfer source dest => passOn context state source dest
  | .activeOn place => (state, .ok (ids (state.ledger.activeOn place)))
  | .heldBy holder => (state, .ok (ids (state.ledger.heldBy holder)))
  | .everHeldBy holder => (state, .ok (ids (state.ledger.everHeldBy holder)))
  | .notes id =>
      onBorrow state id fun borrow =>
        if hasPlace context borrow.referent then
          (state, .ok (.lines (Ledger.notes context.tree borrow)))
        else missing state
  | .show id => onBorrow state id fun borrow => (state, .ok (.borrow borrow))
  | .life id =>
      onBorrow state id fun borrow =>
        if hasPlace context borrow.referent then
          (state, .ok (.life (borrow.life context)))
        else missing state
  | .checkDrop place point span =>
      if hasPlace context place then
        (state.checkDrop context place point span,
          .ok (.count (state.ledger.activeOn place).length))
      else missing state
  | .escapedUse place point span => useEscaped context state place point span

end Probe

end LoanCheck
