import LoanCheck.Liveness
import LoanCheck.Loan.Ledger

/-!
How long borrows last and how long they have to.  A borrow must not outlive the
scope of its referent.
-/

namespace LoanCheck

/-- The points from `start` up to but not including `stop`. -/
structure Extent where
  start : Point
  stop : Point
deriving DecidableEq, Repr

/-- Whether one extent lies inside another. -/
def Extent.inside (inner outer : Extent) : Bool :=
  outer.start ≤ inner.start && inner.stop ≤ outer.stop

namespace Borrow

/-- The points at which an ended borrow was usable. -/
def extent? (borrow : Borrow) : Option Extent :=
  borrow.retired.map fun retired => ⟨borrow.created, retired⟩

/-- The points at which the referent exists. -/
def referentLifetime (borrow : Borrow) (tree : ScopeTree) : Extent :=
  ⟨tree.declaredAt borrow.referent, tree.exitPoint (tree.scopeOf borrow.referent)⟩

/-- The points at which the borrow has to be valid for its holder: until the scope
of the holder ends or, where last uses are known, until just after the last use. -/
def requiredExtent (borrow : Borrow) (tree : ScopeTree) : Option Liveness → Extent
  | some liveness =>
      let last := (liveness.get? borrow.holder).getD borrow.created
      ⟨borrow.created, max last borrow.created + 1⟩
  | none => ⟨borrow.created, tree.exitPoint borrow.holderScope⟩

/-- The extent of an ended borrow, and the required one of an active borrow. -/
def extent (borrow : Borrow) (tree : ScopeTree) (liveness : Option Liveness) : Extent :=
  borrow.extent?.getD (borrow.requiredExtent tree liveness)

/-- Whether the referent exists as long as the borrow has to be valid. -/
def isWithin (borrow : Borrow) (tree : ScopeTree) (liveness : Option Liveness) : Bool :=
  tree.isAncestor (tree.scopeOf borrow.referent) borrow.holderScope ||
    (borrow.requiredExtent tree liveness).inside (borrow.referentLifetime tree)

end Borrow

end LoanCheck
