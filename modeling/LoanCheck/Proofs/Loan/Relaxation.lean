import LoanCheck.Proofs.Loan.Sound

/-!
# Ledgers in which borrows end earlier

Two ledgers of the same borrows, where those of the narrow one may have ended early.  As long as a
borrow is active in the narrow ledger, it is active in the broad one and kept by the same place.
So whatever the broad ledger admits, the narrow one admits, and what ends or passes on borrows in
both keeps them in step.
-/

namespace LoanCheck

namespace Borrow

/-- The same borrow in two ledgers; the narrow one may have ended early, by a given point. -/
structure Relaxes (now : Point) (broad narrow : Borrow) : Prop where
  id : narrow.id = broad.id
  referent : narrow.referent = broad.referent
  kind : narrow.kind = broad.kind
  created : narrow.created = broad.created
  active : narrow.isActive = true → broad.isActive = true ∧ narrow.holder = broad.holder
  ended : ∀ stop, narrow.retired = some stop → stop ≤ broad.retired.getD now

namespace Relaxes

variable {now point : Point} {broad narrow : Borrow}

theorem refl (now : Point) (borrow : Borrow) : Relaxes now borrow borrow where
  id := rfl
  referent := rfl
  kind := rfl
  created := rfl
  active isActive := ⟨isActive, rfl⟩
  ended stop retired := by
    rw [retired]
    exact Nat.le_refl stop

theorem weaken (relaxes : Relaxes now broad narrow) (later : now ≤ point) :
    Relaxes point broad narrow :=
  { relaxes with
    ended := by
      intro stop retired
      have bound := relaxes.ended stop retired
      cases ends : broad.retired with
      | none =>
          rw [ends] at bound
          exact Nat.le_trans bound later
      | some last =>
          rw [ends] at bound
          exact bound }

/-- What ends in both ledgers at once, or only in the broad one. -/
theorem endedIf {chosen : Borrow → Bool} (relaxes : Relaxes now broad narrow) (later : now ≤ point)
    (agree : narrow.isActive = true → chosen narrow = chosen broad) :
    Relaxes now (broad.endedIf chosen point) (narrow.endedIf chosen point) := by
  cases isActive : narrow.isActive with
  | true =>
      obtain ⟨broadActive, _⟩ := relaxes.active isActive
      have same := agree isActive
      unfold Borrow.endedIf
      rw [isActive, broadActive, same]
      split
      · refine { relaxes with active := nofun, ended := ?_ }
        rintro stop ⟨⟩
        exact Nat.le_refl point
      · exact relaxes
  | false =>
      rw [endedIf_of_ended isActive]
      unfold Borrow.endedIf
      split
      · next ends =>
          refine { relaxes with active := fun active => ?_, ended := ?_ }
          · cases isActive.symm.trans active
          · intro stop retired
            have bound := relaxes.ended stop retired
            rw [(isActive_iff broad).mp (Bool.and_eq_true_iff.mp ends).1] at bound
            exact Nat.le_trans bound later
      · exact relaxes

theorem passedOn (tree : ScopeTree) (source dest : PlaceId) (relaxes : Relaxes now broad narrow) :
    Relaxes now (broad.passedOn tree source dest) (narrow.passedOn tree source dest) := by
  cases isActive : narrow.isActive with
  | true =>
      obtain ⟨broadActive, sameHolder⟩ := relaxes.active isActive
      unfold Borrow.passedOn
      rw [isActive, broadActive, sameHolder]
      split
      · exact { relaxes with active := fun _ => ⟨broadActive, rfl⟩ }
      · exact relaxes
  | false =>
      have unchanged : narrow.passedOn tree source dest = narrow := by
        simp [Borrow.passedOn, isActive]
      rw [unchanged]
      unfold Borrow.passedOn
      split
      · refine { relaxes with active := fun active => ?_ }
        cases isActive.symm.trans active
      · exact relaxes

/-- A borrow of the narrow ledger may end at any time. -/
theorem endsEarly (chosen : Borrow → Bool) (relaxes : Relaxes now broad narrow)
    (later : now ≤ point) : Relaxes point broad (narrow.endedIf chosen point) := by
  have weakened := relaxes.weaken later
  unfold Borrow.endedIf
  split
  · next ends =>
      obtain ⟨broadActive, _⟩ := relaxes.active (Bool.and_eq_true_iff.mp ends).1
      refine { weakened with active := nofun, ended := ?_ }
      rintro stop ⟨⟩
      rw [(isActive_iff broad).mp broadActive]
      exact Nat.le_refl point
  · exact weakened

/-- Where a borrow of the broad ledger ends, that of the narrow one ends, too. -/
theorem bothEnd {chosen early : Borrow → Bool} (relaxes : Relaxes now broad narrow)
    (later : now ≤ point)
    (sooner : narrow.isActive = true → chosen broad = true → early narrow = true) :
    Relaxes point (broad.endedIf chosen point) (narrow.endedIf early point) := by
  have narrowed := relaxes.endsEarly early later
  cases active : (narrow.endedIf early point).isActive with
  | false =>
      have agree : (narrow.endedIf early point).isActive = true →
          chosen (narrow.endedIf early point) = chosen broad := by
        intro isActive
        cases active.symm.trans isActive
      have ended := narrowed.endedIf (Nat.le_refl point) agree
      rw [endedIf_of_ended active] at ended
      exact ended
  | true =>
      rw [Borrow.isActive_endedIf, Bool.and_eq_true, Bool.not_eq_true'] at active
      have kept : chosen broad = false := by
        rw [← Bool.not_eq_true]
        intro isChosen
        cases active.2.symm.trans (sooner active.1 isChosen)
      have unchanged : broad.endedIf chosen point = broad := by
        simp [Borrow.endedIf, kept]
      rw [unchanged]
      exact narrowed

end Relaxes

end Borrow

namespace Ledger

/-- A borrow through which its referent may be written: an exclusive one that is alone. -/
def Writable (ledger : Ledger) (borrow : Borrow) : Prop :=
  borrow.kind = .exclusive ∧ ∀ other ∈ ledger.activeOn borrow.referent, other.id = borrow.id

structure Relaxes (now : Point) (broad narrow : Ledger) : Prop where
  broadly : broad.Consistent
  narrowly : narrow.Consistent
  borrows : List.Forall₂ (Borrow.Relaxes now) broad.borrows narrow.borrows

namespace Relaxes

variable {now point : Point} {broad narrow : Ledger} {place : PlaceId}

theorem map {change : Borrow → Borrow} {broadly narrowly : Ledger}
    (relaxes : Relaxes now broad narrow)
    (broadConsistent : broadly.Consistent)
    (broadBorrows : broadly.borrows = broad.borrows.map change)
    (narrowConsistent : narrowly.Consistent)
    (narrowBorrows : narrowly.borrows = narrow.borrows.map change)
    (keeps : ∀ first second, Borrow.Relaxes now first second →
      Borrow.Relaxes now (change first) (change second)) : Relaxes now broadly narrowly where
  broadly := broadConsistent
  narrowly := narrowConsistent
  borrows := by
    rw [broadBorrows, narrowBorrows, List.forall₂_map_left_iff, List.forall₂_map_right_iff]
    exact relaxes.borrows.imp keeps

theorem retireHeldBy (relaxes : Relaxes now broad narrow) (holder : PlaceId)
    (later : now ≤ point) :
    Relaxes now (broad.retireHeldBy holder point) (narrow.retireHeldBy holder point) := by
  apply relaxes.map (relaxes.broadly.retireHeldBy holder point)
    (relaxes.broadly.retireHeldBy_borrows holder point)
    (relaxes.narrowly.retireHeldBy holder point)
    (relaxes.narrowly.retireHeldBy_borrows holder point)
  intro first second both
  apply both.endedIf later
  intro active
  rw [(both.active active).2]

theorem transfer (relaxes : Relaxes now broad narrow) (tree : ScopeTree) (source dest : PlaceId) :
    Relaxes now (broad.transfer tree source dest) (narrow.transfer tree source dest) := by
  by_cases same : source = dest
  · simp only [Ledger.transfer, same, if_true]
    exact relaxes
  · exact relaxes.map (relaxes.broadly.transfer tree source dest)
      (relaxes.broadly.transfer_borrows tree same) (relaxes.narrowly.transfer tree source dest)
      (relaxes.narrowly.transfer_borrows tree same)
      fun _ _ both => both.passedOn tree source dest

/-- What is active in the narrow ledger is active in the broad one. -/
theorem active_in_broad (relaxes : Relaxes now broad narrow) {borrow : Borrow}
    (membership : borrow ∈ narrow.borrows) (active : borrow.isActive = true) :
    ∃ other ∈ broad.borrows, other.isActive = true ∧ borrow.id = other.id ∧
      borrow.referent = other.referent ∧ borrow.kind = other.kind ∧
      borrow.holder = other.holder := by
  obtain ⟨other, listed, both⟩ := exists_of_mem_right relaxes.borrows membership
  obtain ⟨otherActive, sameHolder⟩ := both.active active
  exact ⟨other, listed, otherActive, both.id, both.referent, both.kind, sameHolder⟩

theorem activeOn_eq_nil (relaxes : Relaxes now broad narrow) (free : broad.activeOn place = []) :
    narrow.activeOn place = [] := by
  rw [relaxes.broadly.activeOn_eq_nil_iff] at free
  rw [relaxes.narrowly.activeOn_eq_nil_iff]
  intro borrow membership active
  obtain ⟨other, listed, otherActive, _, sameReferent, _, _⟩ :=
    relaxes.active_in_broad membership active
  rw [sameReferent]
  exact free other listed otherActive

theorem conflict?_eq_none (relaxes : Relaxes now broad narrow) {kind : BorrowKind}
    (admitted : broad.conflict? place kind = none) : narrow.conflict? place kind = none := by
  rw [relaxes.broadly.conflict?_eq_none_iff] at admitted
  rw [relaxes.narrowly.conflict?_eq_none_iff]
  intro borrow membership active same
  obtain ⟨other, listed, otherActive, _, sameReferent, sameKind, _⟩ :=
    relaxes.active_in_broad membership active
  rw [sameKind]
  exact admitted other listed otherActive (sameReferent.symm.trans same)

theorem lend (relaxes : Relaxes now broad narrow) (tree : ScopeTree) {kind : BorrowKind}
    (holder : PlaceId) (point : Point) (origin : Span)
    (admitted : broad.conflict? place kind = none) :
    Relaxes now (broad.lend tree place kind holder point origin)
      (narrow.lend tree place kind holder point origin) := by
  have alsoAdmitted := relaxes.conflict?_eq_none admitted
  have broadly := relaxes.broadly.lend_of_conflict?_eq_none tree holder point origin admitted
  have narrowly := relaxes.narrowly.lend_of_conflict?_eq_none tree holder point origin alsoAdmitted
  refine ⟨relaxes.broadly.lend tree holder point origin admitted,
    relaxes.narrowly.lend tree holder point origin alsoAdmitted, ?_⟩
  simp only [broadly, narrowly, relaxes.borrows.length_eq]
  exact List.rel_append relaxes.borrows (.cons (.refl now _) .nil)

theorem endsEarly {change : Ledger} {chosen : Borrow → Bool} (relaxes : Relaxes now broad narrow)
    (consistent : change.Consistent)
    (borrows : change.borrows = narrow.borrows.map (Borrow.endedIf chosen point))
    (later : now ≤ point) : Relaxes point broad change where
  broadly := relaxes.broadly
  narrowly := consistent
  borrows := by
    rw [borrows, List.forall₂_map_right_iff]
    exact relaxes.borrows.imp fun _ _ both => both.endsEarly chosen later

theorem bothEnd {broadly narrowly : Ledger} {chosen early : Borrow → Bool}
    (relaxes : Relaxes now broad narrow) (broadConsistent : broadly.Consistent)
    (broadBorrows : broadly.borrows = broad.borrows.map (Borrow.endedIf chosen point))
    (narrowConsistent : narrowly.Consistent)
    (narrowBorrows : narrowly.borrows = narrow.borrows.map (Borrow.endedIf early point))
    (later : now ≤ point)
    (sooner : ∀ first second : Borrow, second.holder = first.holder → chosen first = true →
      early second = true) : Relaxes point broadly narrowly where
  broadly := broadConsistent
  narrowly := narrowConsistent
  borrows := by
    rw [broadBorrows, narrowBorrows, List.forall₂_map_left_iff, List.forall₂_map_right_iff]
    exact relaxes.borrows.imp fun first second both =>
      both.bothEnd later fun active => sooner first second (both.active active).2

theorem writable (relaxes : Relaxes now broad narrow)
    (through : ∀ borrow ∈ broad.heldBy place, broad.Writable borrow) :
    ∀ borrow ∈ narrow.heldBy place, narrow.Writable borrow := by
  intro borrow membership
  obtain ⟨listed, active, keeps⟩ := relaxes.narrowly.mem_heldBy.mp membership
  obtain ⟨other, otherListed, otherActive, sameId, sameReferent, sameKind, sameHolder⟩ :=
    relaxes.active_in_broad listed active
  obtain ⟨exclusive, alone⟩ := through other
    (relaxes.broadly.mem_heldBy.mpr ⟨otherListed, otherActive, sameHolder.symm.trans keeps⟩)
  refine ⟨sameKind.trans exclusive, ?_⟩
  intro rival rivalMembership
  obtain ⟨rivalListed, rivalActive, rivalReferent⟩ :=
    relaxes.narrowly.mem_activeOn.mp rivalMembership
  obtain ⟨broadRival, broadListed, broadActive, rivalId, broadReferent, _, _⟩ :=
    relaxes.active_in_broad rivalListed rivalActive
  rw [rivalId, sameId]
  apply alone
  apply relaxes.broadly.mem_activeOn.mpr
  exact ⟨broadListed, broadActive, by rw [← broadReferent, rivalReferent, sameReferent]⟩

end Relaxes

end Ledger

end LoanCheck
