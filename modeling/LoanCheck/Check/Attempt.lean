import LoanCheck.Check.Step

/-!
The transition of a statement where nothing is taken for granted.  A set may refuse
a borrow or lack one that ends, and a place or scope that is looked up may not be
there; `State.step` passes over both, and here they stop the walk.
-/

namespace LoanCheck

namespace Ledger

/-- End a borrow, unless the set of its referent lacks it. -/
def tryRetire (ledger : Ledger) (id : BorrowId) (point : Point) : Except BorrowSetError Ledger :=
  match (ledger.borrows[id]?).filter Borrow.isActive with
  | none => .ok ledger
  | some borrow =>
      (fun _ => ledger.retire id point) <$> (ledger.setOf borrow.referent).remove id

def tryRetireAll (ledger : Ledger) (ids : List BorrowId) (point : Point) :
    Except BorrowSetError Ledger :=
  ids.foldlM (fun ledger id => ledger.tryRetire id point) ledger

end Ledger

namespace State

variable (context : Context) (state : State)

/-- Take a borrow, unless the set of its referent refuses it. -/
def tryLend (referent : PlaceId) (kind : BorrowKind) (holder : PlaceId) (point : Point)
    (span : Span) : Except BorrowSetError State :=
  let taken := lend context state referent kind holder point span
  match state.ledger.conflict? referent kind with
  | some _ => .ok taken
  | none =>
      (fun _ => taken) <$>
        (state.ledger.setOf referent).add ⟨state.ledger.borrows.length, kind⟩

def tryReportOutliving (place : PlaceId) (point : Point) (span : Span) (borrow : Borrow) :
    Except BorrowSetError State :=
  (fun _ => reportOutliving context state place point span borrow) <$>
    (state.ledger.markDangling borrow.id).tryRetire borrow.id point

def tryCheckDrop (place : PlaceId) (point : Point) (span : Span) : Except BorrowSetError State :=
  (state.ledger.activeOn place).foldlM
    (fun state borrow => tryReportOutliving context state place point span borrow) state

def tryEnd (ids : List BorrowId) (point : Point) : Except BorrowSetError State :=
  (fun ledger => { state with ledger }) <$> state.ledger.tryRetireAll ids point

def tryRetireHeldBy (holder : PlaceId) (point : Point) : Except BorrowSetError State :=
  state.tryEnd (state.ledger.heldIds holder) point

def tryDropPlace (place : PlaceId) (point : Point) (span : Span) :
    Except BorrowSetError State := do
  let released ← state.tryRetireHeldBy place point
  let checked ← tryCheckDrop context released place point span
  return { checked with ownership := checked.ownership.drop context.tree place }

-- What is reported of a borrowed place does not bear on the borrows that end with its value.
def tryOverwrite (place : PlaceId) (point : Point) (span : Span) : Except BorrowSetError State :=
  (fun _ => overwrite context state place point span) <$> state.tryRetireHeldBy place point

def tryDeclareFresh (place : PlaceId) (shadowed : Option PlaceId) (point : Point) (span : Span) :
    Except BorrowSetError State := do
  let vacated ←
    match shadowed with
    | some old => tryDropPlace context state old point span
    | none => .ok state
  return { vacated with ownership := vacated.ownership.declare context.tree place }

def tryAssignTarget (target : Target) (point : Point) (span : Span) :
    Except BorrowSetError State :=
  match target with
  | .fresh place shadowed _ => do
      let declared ← tryDeclareFresh context state place shadowed point span
      return { declared with ownership := declared.ownership.fill context.tree place }
  | .existing place => do
      let overwritten ← tryOverwrite context state place point span
      return (assignPlace context overwritten place point span).1

def tryRebindTarget (target : Target) (mutable copy : Flag) (point : Point) (span : Span) :
    Except BorrowSetError State :=
  (fun _ => rebindTarget context state target mutable copy point span) <$>
    match target with
    | .fresh place shadowed _ => tryDeclareFresh context state place shadowed point span
    | .existing place =>
        if state.ownership.stateOf context.tree place == .owned then
          state.tryRetireHeldBy place point
        else .ok state

def tryBind (target : Target) (source : Option Use) (mutable copy : Flag) (point : Point)
    (span : Span) : Except BorrowSetError State :=
  let taken :=
    match source with
    | some source => (takeSource context state source point span).1
    | none => state
  (fun _ => bind context state target source mutable copy point span) <$>
    tryRebindTarget context taken target mutable copy point span

def tryMove (target : Target) (source : Use) (point : Point) (span : Span) :
    Except BorrowSetError State :=
  (fun _ => move context state target source point span) <$>
    tryAssignTarget context (takeSource context state source point span).1 target point span

def tryBorrow (kind : BorrowKind) (target : Target) (source : Use) (point : Point) (span : Span) :
    Except BorrowSetError State := do
  let (used, live) := liveUse context state source point span
  let checked := if live then checkReferent context used kind source.place point span else used
  let assigned ← tryAssignTarget context checked target point span
  if live then tryLend context assigned source.place kind target.place point span
  else return assigned

def tryConsume (source : Use) (point : Point) (span : Span) : Except BorrowSetError State :=
  let (used, live) := liveUse context state source point span
  if live then
    (consumeSource context used source.place point span "consume").tryRetireHeldBy source.place
      (point + 1)
  else .ok used

def tryExitScope (scope : ScopeId) (point : Point) (span : Span) :
    Except BorrowSetError State := do
  let live := (context.tree.placesOf scope).filter fun place =>
    state.ownership.stateOf context.tree place != .dropped
  let released ← live.foldlM (fun state place => state.tryRetireHeldBy place point) state
  live.reverse.foldlM (fun state place => tryDropPlace context state place point span) released

def tryStep (resolution : Resolution) : Except BorrowSetError State :=
  let point := resolution.point
  let span := resolution.loc
  match resolution.effect with
  | .exit closes => tryExitScope context state closes point span
  | .bind target source mutable copy => tryBind context state target source mutable copy point span
  | .declare target => tryDeclareFresh context state target.place target.shadowed? point span
  | .move target source => tryMove context state target source point span
  | .borrow kind target source => tryBorrow context state kind target source point span
  | .consume source => tryConsume context state source point span
  | .enter => .ok (step context state resolution)
  | .write _ => .ok (step context state resolution)
  | .read _ => .ok (step context state resolution)

def tryRetireDead (point : Point) : Except BorrowSetError State :=
  match context.liveness with
  | none => .ok state
  | some liveness =>
      let dead := state.ledger.active.filter fun borrow =>
        !liveness.liveAfter borrow.holder point
      state.tryEnd (dead.map Borrow.id) (point + 1)

end State

/-- What can stop the walk over the statements of a unit. -/
inductive WalkError where
  | scope (scope : ScopeId)
  | place (place : PlaceId)
  | borrowSet (error : BorrowSetError)

namespace ScopeTree

variable (tree : ScopeTree)

def lookUpScopes (scopes : List ScopeId) : Except WalkError Unit :=
  match scopes.find? fun scope => tree.scopes.length ≤ scope with
  | some scope => .error (.scope scope)
  | none => .ok ()

def lookUpPlaces (places : List PlaceId) : Except WalkError Unit :=
  match places.find? fun place => tree.places.length ≤ place with
  | some place => .error (.place place)
  | none => .ok ()

/-- The last uses of places, for which every operand is looked up. -/
def tryLiveness : Except WalkError Liveness := do
  tree.lookUpPlaces (tree.resolved.filterMap fun resolution =>
    resolution.effect.source?.map Use.place)
  return tree.liveness

end ScopeTree

/-- The places of a statement: its own, and those of a scope that it ends. -/
def Effect.places (tree : ScopeTree) (effect : Effect) : List PlaceId :=
  effect.source?.toList.map Use.place ++
    effect.target?.toList.flatMap (fun target => target.place :: target.shadowed?.toList) ++
    effect.closes?.toList.flatMap tree.placesOf

namespace State

/-- The places that a state tells of. -/
def places (state : State) : List PlaceId :=
  state.ownership.map Prod.fst ++
    state.ledger.borrows.flatMap fun borrow => [borrow.referent, borrow.holder]

/-- Make the transition of a statement.  Only its own places and those that the state
tells of are looked up. -/
def attempt (context : Context) (state : State) (resolution : Resolution) :
    Except WalkError State := do
  context.tree.lookUpScopes resolution.effect.closes?.toList
  context.tree.lookUpPlaces (resolution.effect.places context.tree ++ state.places)
  (tryStep context state resolution).mapError .borrowSet

/-- Make the transition of a statement and end the borrows that are not used any more. -/
def tryAdvance (context : Context) (state : State) (resolution : Resolution) :
    Except WalkError State := do
  let stepped ← state.attempt context resolution
  (tryRetireDead context stepped resolution.point).mapError .borrowSet

end State

end LoanCheck
