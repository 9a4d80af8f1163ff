import LoanCheck.Proofs.Loan.Ledger
import LoanCheck.Proofs.Scope.Shift
import Mathlib.Data.List.Nodup

/-!
# The borrows of a unit inside another one

A ledger that has borrows of other places goes through the operations of a unit as an empty one
would.  `Ledger.Embeds` says that the borrows of the guest are the last ones of the host, with
their numbers, points and places shifted; the others concern none of its places.  Every question
about a place of the guest has the same answer in both, and every operation keeps them in step.
-/

namespace LoanCheck

namespace Shift

def borrow (shift : Shift) (borrow : Borrow) : Borrow :=
  { borrow with
    id := borrow.id + shift.borrows
    referent := borrow.referent + shift.places
    created := borrow.created + shift.points
    holder := borrow.holder + shift.places
    holderScope := shift.scopes borrow.holderScope
    retired := borrow.retired.map (· + shift.points) }

/-- A borrow of and by none of the first so many shifted places. -/
def Spares (shift : Shift) (bound : Nat) (borrow : Borrow) : Prop :=
  ∀ place, place < bound →
    borrow.referent ≠ place + shift.places ∧ borrow.holder ≠ place + shift.places

variable {shift : Shift} {bound : Nat}

@[simp]
theorem isActive_borrow (borrow : Borrow) : (shift.borrow borrow).isActive = borrow.isActive := by
  simp [Borrow.isActive, Shift.borrow]

@[simp]
theorem holder_borrow (borrow : Borrow) :
    (shift.borrow borrow).holder = borrow.holder + shift.places :=
  rfl

@[simp]
theorem referent_borrow (borrow : Borrow) :
    (shift.borrow borrow).referent = borrow.referent + shift.places :=
  rfl

@[simp]
theorem add_places_beq (place other : PlaceId) :
    (place + shift.places == other + shift.places) = (place == other) := by
  rw [Bool.eq_iff_iff, beq_iff_eq, beq_iff_eq, Nat.add_right_cancel_iff]

/-- Ending a shifted borrow is shifting the ended one. -/
theorem borrow_endedIf {chosen hostChosen : Borrow → Bool} {borrow : Borrow}
    (agree : hostChosen (shift.borrow borrow) = chosen borrow) (point : Point) :
    (shift.borrow borrow).endedIf hostChosen (point + shift.points) =
      shift.borrow (borrow.endedIf chosen point) := by
  unfold Borrow.endedIf
  rw [isActive_borrow, agree]
  split <;> rfl

theorem borrow_markedIf (borrow : Borrow) (id : Option BorrowId) :
    (shift.borrow borrow).markedIf (id.map (· + shift.borrows)) =
      shift.borrow (borrow.markedIf id) := by
  have same : id.map (· + shift.borrows) = some (shift.borrow borrow).id ↔ id = some borrow.id := by
    cases id <;> simp [Shift.borrow]
  unfold Borrow.markedIf
  simp only [same]
  split <;> rfl

theorem borrow_passedOn {tree hostTree : ScopeTree} {dest : PlaceId}
    (scopes : hostTree.scopeOf (dest + shift.places) = shift.scopes (tree.scopeOf dest))
    (source : PlaceId) (borrow : Borrow) :
    (shift.borrow borrow).passedOn hostTree (source + shift.places) (dest + shift.places) =
      shift.borrow (borrow.passedOn tree source dest) := by
  unfold Borrow.passedOn
  rw [isActive_borrow, holder_borrow, add_places_beq, scopes]
  split <;> rfl

end Shift

namespace Ledger

/-- What forbids a borrow is the first active one of the same place with which it may not be
shared. -/
theorem Consistent.conflict?_eq {ledger : Ledger} (consistent : ledger.Consistent)
    (referent : PlaceId) (kind : BorrowKind) :
    ledger.conflict? referent kind = (ledger.activeOn referent).find? fun borrow =>
      kind == .exclusive || borrow.kind == .exclusive := by
  have granted : (ledger.setOf referent).conflict? kind =
      ((ledger.activeOn referent).find? fun borrow =>
        kind == .exclusive || borrow.kind == .exclusive).map Borrow.grant := by
    rw [consistent.sets, ← consistent.activeOn_eq]
    cases kind with
    | shared =>
        rw [BorrowSet.conflict?, BorrowSet.exclusive?, List.find?_map]
        rfl
    | exclusive =>
        rw [BorrowSet.conflict?, List.head?_map]
        cases ledger.activeOn referent <;> rfl
  rw [conflict?, granted]
  cases conflict : (ledger.activeOn referent).find? fun borrow =>
      kind == .exclusive || borrow.kind == .exclusive with
  | none => rfl
  | some borrow =>
      have listed := consistent.mem_activeOn.mp (List.mem_of_find?_eq_some conflict)
      exact consistent.getElem?_of_mem listed.1

theorem Consistent.nodup_heldBy {ledger : Ledger} (consistent : ledger.Consistent)
    (holder : PlaceId) : (ledger.heldBy holder).Nodup := by
  refine List.Nodup.filterMap ?_ (consistent.nodup holder)
  intro id other borrow found alsoFound
  rw [← consistent.ids id borrow found, ← consistent.ids other borrow alsoFound]

/-- A place that keeps one borrow at most keeps the one of which it is the holder. -/
theorem Consistent.heldBy_eq {ledger : Ledger} (consistent : ledger.Consistent) {holder : PlaceId}
    (few : (ledger.borrows.filter fun borrow =>
      borrow.isActive && borrow.holder == holder).length ≤ 1) :
    ledger.heldBy holder =
      ledger.borrows.filter fun borrow => borrow.isActive && borrow.holder == holder := by
  have same : ∀ borrow, borrow ∈ ledger.heldBy holder ↔ borrow ∈ ledger.borrows.filter
      fun borrow => borrow.isActive && borrow.holder == holder := by
    intro borrow
    rw [consistent.mem_heldBy, List.mem_filter, Bool.and_eq_true, beq_iff_eq]
  have distinct := consistent.nodup_heldBy holder
  generalize ledger.borrows.filter (fun borrow => borrow.isActive && borrow.holder == holder) =
    kept at few same
  rcases kept with _ | ⟨borrow, _ | ⟨other, rest⟩⟩
  · exact List.eq_nil_iff_forall_not_mem.mpr fun borrow kept =>
      List.not_mem_nil ((same borrow).mp kept)
  · exact ((List.perm_ext_iff_of_nodup distinct (List.nodup_singleton borrow)).mpr
      same).eq_singleton
  · simp at few

theorem length_filter_holder {borrows : List Borrow}
    (alone : borrows.Pairwise fun borrow other =>
      borrow.isActive = true → other.isActive = true → borrow.holder ≠ other.holder)
    (holder : PlaceId) :
    (borrows.filter fun borrow => borrow.isActive && borrow.holder == holder).length ≤ 1 := by
  have apart := alone.filter fun borrow => borrow.isActive && borrow.holder == holder
  have chosen : ∀ borrow ∈ borrows.filter fun borrow =>
      borrow.isActive && borrow.holder == holder,
      borrow.isActive = true ∧ borrow.holder = holder := by
    intro borrow listed
    rw [List.mem_filter, Bool.and_eq_true, beq_iff_eq] at listed
    exact listed.2
  generalize borrows.filter (fun borrow => borrow.isActive && borrow.holder == holder) =
    kept at apart chosen
  rcases kept with _ | ⟨borrow, _ | ⟨other, rest⟩⟩
  · exact Nat.zero_le 1
  · exact Nat.le_refl 1
  · obtain ⟨active, isHolder⟩ := chosen borrow List.mem_cons_self
    obtain ⟨alsoActive, alsoHolder⟩ := chosen other (List.mem_cons_of_mem _ List.mem_cons_self)
    have different := (List.pairwise_cons.mp apart).1 other List.mem_cons_self
    exact absurd (isHolder.trans alsoHolder.symm) (different active alsoActive)

/-- The borrows of one ledger are the last ones of another, shifted; the others concern none of
its places. -/
structure Embeds (shift : Shift) (bound : Nat) (guest host : Ledger) : Prop where
  guestConsistent : guest.Consistent
  hostConsistent : host.Consistent
  inside : ∀ borrow ∈ guest.borrows, borrow.referent < bound ∧ borrow.holder < bound
  borrows : ∃ others, others.length = shift.borrows ∧
    (∀ borrow ∈ others, shift.Spares bound borrow) ∧
    host.borrows = others ++ guest.borrows.map shift.borrow

namespace Embeds

variable {shift : Shift} {bound : Nat} {guest host : Ledger}
  (embeds : Embeds shift bound guest host)

include embeds

theorem length_borrows : host.borrows.length = guest.borrows.length + shift.borrows := by
  obtain ⟨others, count, _, appended⟩ := embeds.borrows
  rw [appended, List.length_append, List.length_map, count, Nat.add_comm]

/-- A test that only borrows of the guest's places pass picks the same ones in both. -/
theorem filter_eq {test hostTest : Borrow → Bool}
    (agree : ∀ borrow ∈ guest.borrows, hostTest (shift.borrow borrow) = test borrow)
    (fails : ∀ borrow, shift.Spares bound borrow → hostTest borrow = false) :
    host.borrows.filter hostTest = (guest.borrows.filter test).map shift.borrow := by
  obtain ⟨others, _, spared, appended⟩ := embeds.borrows
  have nothing : others.filter hostTest = [] := by
    rw [List.filter_eq_nil_iff]
    intro borrow listed
    rw [fails borrow (spared borrow listed)]
    exact Bool.false_ne_true
  rw [appended, List.filter_append, nothing, List.nil_append, List.filter_map]
  congr 1
  exact List.filter_congr agree

section Place

variable {place : PlaceId} (known : place < bound)

include known

theorem activeOn_eq :
    host.activeOn (place + shift.places) = (guest.activeOn place).map shift.borrow := by
  rw [embeds.hostConsistent.activeOn_eq, embeds.guestConsistent.activeOn_eq]
  apply embeds.filter_eq
  · intro borrow _
    rw [Shift.isActive_borrow, Shift.referent_borrow, Shift.add_places_beq]
  · intro borrow spared
    rw [beq_false_of_ne (spared place known).1, Bool.and_false]

theorem everHeldBy_eq :
    host.everHeldBy (place + shift.places) = (guest.everHeldBy place).map shift.borrow := by
  apply embeds.filter_eq
  · intro borrow _
    rw [Shift.holder_borrow, Shift.add_places_beq]
  · intro borrow spared
    exact beq_false_of_ne (spared place known).2

theorem conflict?_eq (kind : BorrowKind) :
    host.conflict? (place + shift.places) kind = (guest.conflict? place kind).map shift.borrow := by
  rw [embeds.hostConsistent.conflict?_eq, embeds.guestConsistent.conflict?_eq,
    embeds.activeOn_eq known, List.find?_map]
  rfl

theorem heldBy_eq
    (alone : guest.borrows.Pairwise fun borrow other =>
      borrow.isActive = true → other.isActive = true → borrow.holder ≠ other.holder) :
    host.heldBy (place + shift.places) = (guest.heldBy place).map shift.borrow := by
  have few := length_filter_holder alone place
  have kept : host.borrows.filter (fun borrow =>
        borrow.isActive && borrow.holder == place + shift.places) =
      (guest.borrows.filter fun borrow =>
        borrow.isActive && borrow.holder == place).map shift.borrow := by
    apply embeds.filter_eq
    · intro borrow _
      rw [Shift.isActive_borrow, Shift.holder_borrow, Shift.add_places_beq]
    · intro borrow spared
      rw [beq_false_of_ne (spared place known).2, Bool.and_false]
  have alsoFew : (host.borrows.filter fun borrow =>
      borrow.isActive && borrow.holder == place + shift.places).length ≤ 1 := by
    rw [kept, List.length_map]
    exact few
  rw [embeds.hostConsistent.heldBy_eq alsoFew, embeds.guestConsistent.heldBy_eq few, kept]

end Place

theorem map {guestNext hostNext : Ledger} {change hostChange : Borrow → Borrow}
    (guestConsistent : guestNext.Consistent) (hostConsistent : hostNext.Consistent)
    (guestBorrows : guestNext.borrows = guest.borrows.map change)
    (hostBorrows : hostNext.borrows = host.borrows.map hostChange)
    (agree : ∀ borrow ∈ guest.borrows,
      hostChange (shift.borrow borrow) = shift.borrow (change borrow))
    (stays : ∀ borrow ∈ guest.borrows,
      (change borrow).referent < bound ∧ (change borrow).holder < bound)
    (spares : ∀ borrow, shift.Spares bound borrow → shift.Spares bound (hostChange borrow)) :
    Embeds shift bound guestNext hostNext := by
  obtain ⟨others, count, spared, appended⟩ := embeds.borrows
  refine ⟨guestConsistent, hostConsistent, ?_, others.map hostChange, ?_, ?_, ?_⟩
  · rw [guestBorrows]
    intro _ listed
    obtain ⟨borrow, old, rfl⟩ := List.mem_map.mp listed
    exact stays borrow old
  · rw [List.length_map]
    exact count
  · intro _ listed
    obtain ⟨borrow, old, rfl⟩ := List.mem_map.mp listed
    exact spares borrow (spared borrow old)
  · rw [hostBorrows, guestBorrows, appended, List.map_append, List.map_map, List.map_map]
    congr 1
    exact List.map_congr_left agree

/-- Ending borrows that are chosen in the same way. -/
theorem ended {guestNext hostNext : Ledger} {chosen hostChosen : Borrow → Bool} {point : Point}
    (guestConsistent : guestNext.Consistent) (hostConsistent : hostNext.Consistent)
    (guestBorrows : guestNext.borrows = guest.borrows.map (Borrow.endedIf chosen point))
    (hostBorrows : hostNext.borrows =
      host.borrows.map (Borrow.endedIf hostChosen (point + shift.points)))
    (agree : ∀ borrow ∈ guest.borrows, hostChosen (shift.borrow borrow) = chosen borrow) :
    Embeds shift bound guestNext hostNext := by
  refine embeds.map guestConsistent hostConsistent guestBorrows hostBorrows ?_ ?_ ?_
  · exact fun borrow listed => Shift.borrow_endedIf (agree borrow listed) point
  · intro borrow listed
    rw [Borrow.endedIf_referent, Borrow.endedIf_holder]
    exact embeds.inside borrow listed
  · intro borrow spared place known
    rw [Borrow.endedIf_referent, Borrow.endedIf_holder]
    exact spared place known

theorem retireHeldBy (holder : PlaceId) (point : Point) :
    Embeds shift bound (guest.retireHeldBy holder point)
      (host.retireHeldBy (holder + shift.places) (point + shift.points)) := by
  refine embeds.ended (embeds.guestConsistent.retireHeldBy holder point)
    (embeds.hostConsistent.retireHeldBy _ _)
    (embeds.guestConsistent.retireHeldBy_borrows holder point)
    (embeds.hostConsistent.retireHeldBy_borrows _ _) ?_
  intro borrow _
  exact Shift.add_places_beq borrow.holder holder

theorem retire (id : BorrowId) (point : Point) :
    Embeds shift bound (guest.retire id point)
      (host.retire (id + shift.borrows) (point + shift.points)) := by
  refine embeds.ended (embeds.guestConsistent.retire id point) (embeds.hostConsistent.retire _ _)
    (embeds.guestConsistent.retire_borrows id point) (embeds.hostConsistent.retire_borrows _ _) ?_
  intro borrow _
  rw [Bool.eq_iff_iff, beq_iff_eq, beq_iff_eq]
  exact Nat.add_right_cancel_iff

theorem markDangling (id : BorrowId) :
    Embeds shift bound (guest.markDangling id) (host.markDangling (id + shift.borrows)) := by
  refine embeds.map (embeds.guestConsistent.markDangling id) (embeds.hostConsistent.markDangling _)
    (embeds.guestConsistent.markDangling_borrows id) (embeds.hostConsistent.markDangling_borrows _)
    ?_ ?_ ?_
  · exact fun borrow _ => Shift.borrow_markedIf borrow (some id)
  · intro borrow listed
    rw [Borrow.markedIf_referent, Borrow.markedIf_holder]
    exact embeds.inside borrow listed
  · intro borrow spared place known
    rw [Borrow.markedIf_referent, Borrow.markedIf_holder]
    exact spared place known

section Scopes

variable {tree hostTree : ScopeTree} {holder : PlaceId} (known : holder < bound)
  (scopes : hostTree.scopeOf (holder + shift.places) = shift.scopes (tree.scopeOf holder))

include known scopes

theorem transfer {source : PlaceId} (alsoKnown : source < bound) :
    Embeds shift bound (guest.transfer tree source holder)
      (host.transfer hostTree (source + shift.places) (holder + shift.places)) := by
  by_cases same : source = holder
  · subst same
    simpa [Ledger.transfer] using embeds
  · have different : source + shift.places ≠ holder + shift.places := by simpa using same
    refine embeds.map (embeds.guestConsistent.transfer tree source holder)
      (embeds.hostConsistent.transfer hostTree _ _)
      (embeds.guestConsistent.transfer_borrows tree same)
      (embeds.hostConsistent.transfer_borrows hostTree different) ?_ ?_ ?_
    · exact fun borrow _ => Shift.borrow_passedOn scopes source borrow
    · intro borrow listed
      unfold Borrow.passedOn
      split
      · exact ⟨(embeds.inside borrow listed).1, known⟩
      · exact embeds.inside borrow listed
    · intro borrow spared
      have other := beq_false_of_ne (spared source alsoKnown).2
      rw [Borrow.passedOn, other, Bool.and_false, if_neg Bool.false_ne_true]
      exact spared

theorem lend {referent : PlaceId} {kind : BorrowKind} (point : Point) (origin : Span)
    (alsoKnown : referent < bound) (admitted : guest.conflict? referent kind = none) :
    Embeds shift bound (guest.lend tree referent kind holder point origin)
      (host.lend hostTree (referent + shift.places) kind (holder + shift.places)
        (point + shift.points) origin) := by
  have hostAdmitted : host.conflict? (referent + shift.places) kind = none := by
    rw [embeds.conflict?_eq alsoKnown, admitted]
    rfl
  have entered := embeds.guestConsistent.lend_of_conflict?_eq_none tree holder point origin admitted
  have hostEntered := embeds.hostConsistent.lend_of_conflict?_eq_none hostTree
    (holder + shift.places) (point + shift.points) origin hostAdmitted
  refine ⟨embeds.guestConsistent.lend tree holder point origin admitted,
    embeds.hostConsistent.lend hostTree _ _ origin hostAdmitted, ?_, ?_⟩
  · rw [entered]
    intro borrow listed
    rcases List.mem_append.mp listed with old | new
    · exact embeds.inside borrow old
    · cases List.mem_singleton.mp new
      exact ⟨alsoKnown, known⟩
  · obtain ⟨others, count, spared, appended⟩ := embeds.borrows
    refine ⟨others, count, spared, ?_⟩
    rw [entered, hostEntered]
    simp only [embeds.length_borrows, scopes, List.map_append, List.map_cons, List.map_nil]
    rw [appended, List.append_assoc]
    rfl

end Scopes

end Embeds

end Ledger

end LoanCheck
