import LoanCheck.Program.Basic

/-!
The active borrows of one place.  A place has any number of shared borrows or one
exclusive borrow, never both; adding a borrow against that rule is refused.
-/

namespace LoanCheck

abbrev BorrowId := Nat

/-- A borrow as far as sharing is concerned. -/
structure Grant where
  id : BorrowId
  kind : BorrowKind
deriving DecidableEq, Repr

abbrev BorrowSet := List Grant

inductive BorrowSetError where
  | invariant
  | absent
deriving DecidableEq, Repr

def BorrowSetError.message : BorrowSetError → String
  | .invariant => "borrow set invariant violated (borrow tracker bug)"
  | .absent => "list.remove(x): x not in list"

/-- A change that is asked of a set. -/
inductive BorrowSetCall where
  | add (grant : Grant)
  | remove (id : BorrowId)
deriving DecidableEq, Repr

namespace BorrowSet

/-- The first exclusive borrow. -/
def exclusive? (grants : BorrowSet) : Option Grant :=
  grants.find? fun grant => grant.kind == .exclusive

/-- A borrow that forbids another one of the given kind. -/
def conflict? (grants : BorrowSet) : BorrowKind → Option Grant
  | .shared => grants.exclusive?
  | .exclusive => grants.head?

/-- Whether all borrows are shared, or there is just one. -/
def isValid (grants : BorrowSet) : Bool :=
  let exclusives := grants.countP fun grant => grant.kind == .exclusive
  exclusives == 0 || (exclusives == 1 && grants.length == 1)

/-- Add a borrow at the end. -/
def add (grants : BorrowSet) (grant : Grant) : Except BorrowSetError BorrowSet :=
  let added : BorrowSet := grants ++ [grant]
  if added.isValid then .ok added else .error .invariant

/-- Remove the first occurrence of a borrow. -/
def remove (grants : BorrowSet) (id : BorrowId) : Except BorrowSetError BorrowSet :=
  if grants.any fun grant => grant.id == id then
    .ok (grants.eraseP fun grant => grant.id == id)
  else .error .absent

/-- The set after a call, and whether the call succeeded.  A borrow is entered before the
set is judged, and taken out again if the set is not valid with it. -/
def call (grants : BorrowSet) : BorrowSetCall → BorrowSet × Except BorrowSetError Unit
  | .add grant =>
      let entered : BorrowSet := grants ++ [grant]
      if entered.isValid then (entered, .ok ()) else (entered.dropLast, .error .invariant)
  | .remove id =>
      match grants.remove id with
      | .ok fewer => (fewer, .ok ())
      | .error error => (grants, .error error)

/-- The set after calls one after another, whether or not they succeeded. -/
def callAll (grants : BorrowSet) (calls : List BorrowSetCall) : BorrowSet :=
  calls.foldl (fun grants call => (grants.call call).1) grants

end BorrowSet

end LoanCheck
