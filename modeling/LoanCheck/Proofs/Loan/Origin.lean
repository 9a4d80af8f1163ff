import LoanCheck.Proofs.Loan.Ledger
import LoanCheck.Proofs.Scope.Shift
import Mathlib.Data.List.Forall2

/-!
# Where borrows were taken

A borrow remembers where in the source it was taken, and nothing ever looks at that.  Without
these places every question about a ledger has the same answer, and every operation does the
same: `Ledger.unplaced` commutes with all of them.
-/

namespace LoanCheck

namespace Borrow

/-- A borrow without the place in the source where it was taken. -/
def unplaced (borrow : Borrow) : Borrow := { borrow with origin := {} }

/-- The same borrow, perhaps taken at another place in the source. -/
structure Alike (first second : Borrow) : Prop where
  same : second.unplaced = first.unplaced

namespace Alike

variable {first second : Borrow} (alike : Alike first second)

include alike

theorem id : second.id = first.id := (congrArg Borrow.id alike.same :)

theorem referent : second.referent = first.referent := (congrArg Borrow.referent alike.same :)

theorem kind : second.kind = first.kind := (congrArg Borrow.kind alike.same :)

theorem holder : second.holder = first.holder := (congrArg Borrow.holder alike.same :)

end Alike

/-- Lists of borrows that differ only in where those were taken. -/
theorem forall₂_alike {first second : List Borrow}
    (same : second.map unplaced = first.map unplaced) : List.Forall₂ Alike first second := by
  have pairs : List.Forall₂ (· = ·) (first.map unplaced) (second.map unplaced) := by
    rw [same, List.forall₂_eq_eq_eq]
  rw [List.forall₂_map_left_iff, List.forall₂_map_right_iff] at pairs
  exact pairs.imp fun _ _ equal => ⟨equal.symm⟩

theorem rel_alike {first second : Option Borrow}
    (same : second.map unplaced = first.map unplaced) : Option.Rel Alike first second := by
  cases first with
  | none =>
      rw [Option.map_none, Option.map_eq_none_iff] at same
      rw [same]
      exact .none
  | some borrow =>
      obtain ⟨twin, rfl, alike⟩ := Option.map_eq_some_iff.mp same
      exact .some ⟨alike⟩

theorem any_dangling_map (borrows : List Borrow) :
    (borrows.map unplaced).any Borrow.dangling = borrows.any Borrow.dangling :=
  List.any_map

end Borrow

namespace Ledger

def unplaced (ledger : Ledger) : Ledger :=
  { ledger with borrows := ledger.borrows.map Borrow.unplaced }

variable (ledger : Ledger)

theorem getElem?_unplaced (id : BorrowId) :
    ledger.unplaced.borrows[id]? = (ledger.borrows[id]?).map Borrow.unplaced :=
  List.getElem?_map

theorem filterMap_unplaced {Alpha : Type} (values : List Alpha) (id : Alpha → BorrowId) :
    (values.filterMap fun value => ledger.unplaced.borrows[id value]?) =
      (values.filterMap fun value => ledger.borrows[id value]?).map Borrow.unplaced := by
  rw [List.map_filterMap]
  apply List.filterMap_congr
  intro value _
  exact ledger.getElem?_unplaced (id value)

theorem activeOn_unplaced (place : PlaceId) :
    ledger.unplaced.activeOn place = (ledger.activeOn place).map Borrow.unplaced :=
  ledger.filterMap_unplaced (ledger.setOf place) Grant.id

theorem heldBy_unplaced (holder : PlaceId) :
    ledger.unplaced.heldBy holder = (ledger.heldBy holder).map Borrow.unplaced :=
  ledger.filterMap_unplaced (ledger.heldIds holder) id

theorem everHeldBy_unplaced (holder : PlaceId) :
    ledger.unplaced.everHeldBy holder = (ledger.everHeldBy holder).map Borrow.unplaced :=
  List.filter_map

theorem active_unplaced : ledger.unplaced.active = ledger.active.map Borrow.unplaced :=
  List.filter_map

theorem conflict?_unplaced (referent : PlaceId) (kind : BorrowKind) :
    ledger.unplaced.conflict? referent kind =
      (ledger.conflict? referent kind).map Borrow.unplaced := by
  have same : ledger.unplaced.setOf referent = ledger.setOf referent := rfl
  rw [conflict?, same, conflict?]
  cases (ledger.setOf referent).conflict? kind with
  | none => rfl
  | some grant => exact ledger.getElem?_unplaced grant.id

/-- A change that leaves the place in the source alone. -/
theorem map_unplaced_modify (id : BorrowId) (change : Borrow → Borrow)
    (commutes : ∀ borrow, change borrow.unplaced = (change borrow).unplaced) :
    (ledger.borrows.modify id change).map Borrow.unplaced =
      ledger.unplaced.borrows.modify id change :=
  (Builder.modify_append_map [] ledger.borrows id commutes).symm

theorem unplaced_retire (id : BorrowId) (point : Point) :
    (ledger.retire id point).unplaced = ledger.unplaced.retire id point := by
  have ended := ledger.map_unplaced_modify id
    (fun borrow => { borrow with retired := some point }) fun _ => rfl
  simp only [retire, getElem?_unplaced]
  cases ledger.borrows[id]? with
  | none => rfl
  | some borrow =>
      have same : borrow.unplaced.isActive = borrow.isActive := rfl
      simp only [Option.map_some, same]
      split
      · simp only [unplaced, ended]
        rfl
      · rfl

theorem unplaced_retireAll (ids : List BorrowId) (point : Point) :
    (ledger.retireAll ids point).unplaced = ledger.unplaced.retireAll ids point := by
  induction ids generalizing ledger with
  | nil => rfl
  | cons id rest inductionHypothesis =>
      apply (inductionHypothesis (ledger.retire id point)).trans
      rw [unplaced_retire]
      rfl

theorem unplaced_retireHeldBy (holder : PlaceId) (point : Point) :
    (ledger.retireHeldBy holder point).unplaced = ledger.unplaced.retireHeldBy holder point :=
  ledger.unplaced_retireAll (ledger.heldIds holder) point

theorem unplaced_markDangling (id : BorrowId) :
    (ledger.markDangling id).unplaced = ledger.unplaced.markDangling id := by
  have marked := ledger.map_unplaced_modify id
    (fun borrow => { borrow with dangling := true }) fun _ => rfl
  simp only [markDangling, unplaced, marked]

theorem unplaced_transfer {tree other : ScopeTree} {dest : PlaceId}
    (scopes : other.scopeOf dest = tree.scopeOf dest) (source : PlaceId) :
    (ledger.transfer tree source dest).unplaced = ledger.unplaced.transfer other source dest := by
  unfold transfer
  split
  · rfl
  · simp only [unplaced, release, scopes, List.map_map]
    congr 1
    apply List.map_congr_left
    intro borrow _
    change (if (ledger.heldIds source).contains borrow.id then _ else borrow).unplaced =
      if (ledger.heldIds source).contains borrow.id then _ else borrow.unplaced
    split <;> rfl

theorem unplaced_lend {tree other : ScopeTree} {holder : PlaceId}
    (scopes : other.scopeOf holder = tree.scopeOf holder) (referent : PlaceId) (kind : BorrowKind)
    (point : Point) (origin : Span) :
    (ledger.lend tree referent kind holder point origin).unplaced =
      ledger.unplaced.lend other referent kind holder point {} := by
  have count : ledger.unplaced.borrows.length = ledger.borrows.length := List.length_map _
  have sets : ledger.unplaced.setOf referent = ledger.setOf referent := rfl
  simp only [lend, count, sets, scopes, Borrow.grant]
  split
  · rfl
  · simp only [unplaced, List.map_append, List.map_cons, List.map_nil]
    rfl

end Ledger

end LoanCheck
