import LoanCheck.Scope.Tree
import LoanCheck.Table

/-!
The last use of each reference.  Units are straight-line, so a reference is live up
to the last point that uses it.  A reference taken through another one keeps that
one alive as long as itself, so last uses are carried back along such borrows.
-/

namespace LoanCheck

/-- The last point that uses each place. -/
abbrev Liveness := Table Point

namespace Liveness

/-- Whether a place is used after a point. -/
def liveAfter (liveness : Liveness) (place : PlaceId) (point : Int) : Bool :=
  match liveness.get? place with
  | some last => point < last
  | none => point < -1

/-- Count a statement as a use of its source. -/
def addUse (tree : ScopeTree) (liveness : Liveness) (resolution : Resolution) : Liveness :=
  match resolution.effect.source? with
  | none => liveness
  | some source =>
      if tree.holdsReference source.place then
        match liveness.get? source.place with
        | some last => liveness.set source.place (max last resolution.point)
        | none => liveness.set source.place resolution.point
      else liveness

/-- Carry the last use of a new reference back to the reference it was taken through. -/
def carryBack (tree : ScopeTree) (liveness : Liveness) (resolution : Resolution) : Liveness :=
  match resolution.effect with
  | .borrow _ target source =>
      if tree.holdsReference source.place then
        match liveness.get? target.place with
        | some last =>
            if (liveness.get? source.place).all fun own => own < last then
              liveness.set source.place last
            else liveness
        | none => liveness
      else liveness
  | _ => liveness

end Liveness

/-- The liveness of the references of a unit. -/
def ScopeTree.liveness (tree : ScopeTree) : Liveness :=
  let uses := tree.resolved.foldl (Liveness.addUse tree) []
  tree.resolved.reverse.foldl (Liveness.carryBack tree) uses

end LoanCheck
