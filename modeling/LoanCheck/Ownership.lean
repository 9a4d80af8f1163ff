import LoanCheck.Scope.Tree
import LoanCheck.Table

/-!
The ownership of values by places, as a small state machine per place: a place is
given a value, the value may be moved out, and in the end the place is dropped.
-/

namespace LoanCheck

inductive OwnershipState where
  | uninitialized
  | owned
  | movedOut
  | dropped
deriving DecidableEq, Repr

def OwnershipState.text : OwnershipState → String
  | .uninitialized => "UNINITIALIZED"
  | .owned => "OWNED"
  | .movedOut => "MOVED_OUT"
  | .dropped => "DROPPED"

/-- The state of a place and the flags of the binding in force. -/
structure OwnershipRecord where
  state : OwnershipState
  mutable : Flag
  copy : Flag
deriving Repr

/-- A place as it was declared, without a value. -/
def ScopeTree.freshRecord (tree : ScopeTree) (place : PlaceId) : OwnershipRecord :=
  match tree.places[place]? with
  | some place => ⟨.uninitialized, place.mutable, place.copy⟩
  | none => ⟨.uninitialized, .bool false, .bool false⟩

/-- The records of the places met so far. -/
abbrev Ownership := Table OwnershipRecord

namespace Ownership

/-- The record of a place; one not met before is as it was declared. -/
def record (ownership : Ownership) (tree : ScopeTree) (place : PlaceId) : OwnershipRecord :=
  (ownership.get? place).getD (tree.freshRecord place)

def stateOf (ownership : Ownership) (tree : ScopeTree) (place : PlaceId) : OwnershipState :=
  (ownership.record tree place).state

def isMutable (ownership : Ownership) (tree : ScopeTree) (place : PlaceId) : Bool :=
  (ownership.record tree place).mutable.isTrue

/-- Make sure that a place has a record. -/
def touch (ownership : Ownership) (tree : ScopeTree) (place : PlaceId) : Ownership :=
  match ownership.get? place with
  | some _ => ownership
  | none => ownership.set place (tree.freshRecord place)

def setState (ownership : Ownership) (tree : ScopeTree) (place : PlaceId)
    (state : OwnershipState) : Ownership :=
  ownership.set place { ownership.record tree place with state }

/-- A declared place starts without a value. -/
def declare (ownership : Ownership) (tree : ScopeTree) (place : PlaceId) : Ownership :=
  ownership.set place (tree.freshRecord place)

/-- Give a place a value under the flags it has. -/
def fill (ownership : Ownership) (tree : ScopeTree) (place : PlaceId) : Ownership :=
  ownership.setState tree place .owned

/-- Move the value out; a value that may be copied stays. -/
def moveOut (ownership : Ownership) (tree : ScopeTree) (place : PlaceId) : Ownership :=
  let record := ownership.record tree place
  if record.copy.isTrue && record.state == .owned then ownership
  else ownership.setState tree place .movedOut

/-- Give a place a value under new flags. -/
def rebind (ownership : Ownership) (place : PlaceId) (mutable copy : Flag) : Ownership :=
  ownership.set place ⟨.owned, mutable, copy⟩

def drop (ownership : Ownership) (tree : ScopeTree) (place : PlaceId) : Ownership :=
  ownership.setState tree place .dropped

/-- The places that have not been dropped, with their states. -/
def live (ownership : Ownership) : List (PlaceId × OwnershipState) :=
  ownership.filterMap fun (place, record) =>
    if record.state = .dropped then none else some (place, record.state)

end Ownership

end LoanCheck
