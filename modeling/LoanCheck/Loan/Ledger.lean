import LoanCheck.Loan.Set
import LoanCheck.Scope.Tree
import LoanCheck.Table

/-!
All borrows of a unit.  Each borrow is entered under its referent, where sharing
is decided, and under its holder, the place that keeps the reference, because a
borrow ends with its holder.
-/

namespace LoanCheck

/-- A reference to `referent` kept in `holder`. -/
structure Borrow where
  id : BorrowId
  referent : PlaceId
  kind : BorrowKind
  created : Point
  holder : PlaceId
  holderScope : ScopeId
  origin : Span
  retired : Option Point := none
  dangling : Bool := false
deriving DecidableEq, Repr

namespace Borrow

def isActive (borrow : Borrow) : Bool := borrow.retired.isNone

def grant (borrow : Borrow) : Grant := ⟨borrow.id, borrow.kind⟩

end Borrow

structure Ledger where
  borrows : List Borrow := []
  /-- The active borrows of each place. -/
  sets : Table BorrowSet := []
  /-- The active borrows that each place keeps. -/
  held : Table (List BorrowId) := []

namespace Ledger

def setOf (ledger : Ledger) (place : PlaceId) : BorrowSet :=
  (ledger.sets.get? place).getD []

def heldIds (ledger : Ledger) (holder : PlaceId) : List BorrowId :=
  (ledger.held.get? holder).getD []

/-- The active borrows of a place. -/
def activeOn (ledger : Ledger) (place : PlaceId) : List Borrow :=
  (ledger.setOf place).filterMap fun grant => ledger.borrows[grant.id]?

/-- The active borrows that a place keeps. -/
def heldBy (ledger : Ledger) (holder : PlaceId) : List Borrow :=
  (ledger.heldIds holder).filterMap fun id => ledger.borrows[id]?

/-- The borrows that a place was the last to keep, active or not. -/
def everHeldBy (ledger : Ledger) (holder : PlaceId) : List Borrow :=
  ledger.borrows.filter fun borrow => borrow.holder == holder

def active (ledger : Ledger) : List Borrow :=
  ledger.borrows.filter Borrow.isActive

/-- A borrow that forbids another one. -/
def conflict? (ledger : Ledger) (referent : PlaceId) (kind : BorrowKind) : Option Borrow :=
  ((ledger.setOf referent).conflict? kind).bind fun grant => ledger.borrows[grant.id]?

/-- Enter a borrow; the set of its referent must admit it. -/
def lend (ledger : Ledger) (tree : ScopeTree) (referent : PlaceId) (kind : BorrowKind)
    (holder : PlaceId) (point : Point) (origin : Span) : Ledger :=
  let id := ledger.borrows.length
  let borrow : Borrow :=
    { id, referent, kind, created := point, holder, holderScope := tree.scopeOf holder, origin }
  match (ledger.setOf referent).add borrow.grant with
  | .error _ => ledger
  | .ok grants =>
      { borrows := ledger.borrows ++ [borrow]
        sets := ledger.sets.set referent grants
        held := ledger.held.set holder (ledger.heldIds holder ++ [id]) }

/-- End a borrow, unless it has ended already. -/
def retire (ledger : Ledger) (id : BorrowId) (point : Point) : Ledger :=
  match ledger.borrows[id]? with
  | none => ledger
  | some borrow =>
      if borrow.isActive then
        { borrows := ledger.borrows.modify id fun borrow => { borrow with retired := some point }
          sets :=
            match (ledger.setOf borrow.referent).remove id with
            | .ok grants => ledger.sets.set borrow.referent grants
            | .error _ => ledger.sets
          held :=
            if (ledger.heldIds borrow.holder).contains id then
              ledger.held.set borrow.holder ((ledger.heldIds borrow.holder).erase id)
            else ledger.held }
      else ledger

/-- End several borrows. -/
def retireAll (ledger : Ledger) (ids : List BorrowId) (point : Point) : Ledger :=
  ids.foldl (fun ledger id => ledger.retire id point) ledger

/-- End what a place keeps. -/
def retireHeldBy (ledger : Ledger) (holder : PlaceId) (point : Point) : Ledger :=
  ledger.retireAll (ledger.heldIds holder) point

/-- Take everything from a holder without passing it on. -/
def release (ledger : Ledger) (holder : PlaceId) : Ledger :=
  { ledger with held := ledger.held.set holder [] }

/-- Pass what one place keeps on to another. -/
def transfer (ledger : Ledger) (tree : ScopeTree) (source dest : PlaceId) : Ledger :=
  if source = dest then ledger
  else
    let moved := ledger.heldIds source
    let scope := tree.scopeOf dest
    let released := ledger.release source
    { released with
      borrows := ledger.borrows.map fun borrow =>
        if moved.contains borrow.id then { borrow with holder := dest, holderScope := scope }
        else borrow
      held := released.held.set dest (released.heldIds dest ++ moved) }

/-- Note that a borrow has outlived what it refers to. -/
def markDangling (ledger : Ledger) (id : BorrowId) : Ledger :=
  { ledger with
    borrows := ledger.borrows.modify id fun borrow => { borrow with dangling := true } }

/-- What is told of a borrow in notes. -/
def notes (tree : ScopeTree) (borrow : Borrow) : List String :=
  let kind := borrow.kind.text
  let referent := tree.named borrow.referent
  let holder := tree.named borrow.holder
  [s!"{kind} borrow of {referent} created at point {borrow.created}",
    s!"borrow held by {holder}"]

end Ledger

end LoanCheck
