import LoanCheck.Check.Attempt
import LoanCheck.Proofs.Check.Frozen

/-!
# Operations on borrows in any order

The rules of the analysis are applied here to any places and borrows and at any points, as no
unit would ask for them.  `Ledger.Indexed` says how the borrows of a ledger, the sets of borrowed
places and the lists of holders belong together.  Every operation keeps that, none of them meets
a set that refuses a borrow or lacks one, and the end of a borrow is final.
-/

namespace LoanCheck

namespace Ledger

structure Indexed (ledger : Ledger) : Prop where
  ids : ∀ (id : BorrowId) (borrow : Borrow), ledger.borrows[id]? = some borrow → borrow.id = id
  /-- The set of a place is its active borrows in the order of their numbers. -/
  sets : ∀ place : PlaceId, ledger.setOf place =
    (ledger.borrows.filter fun borrow => borrow.isActive && borrow.referent == place).map
      Borrow.grant
  ascending : ∀ place : PlaceId, ((ledger.setOf place).map Grant.id).Pairwise (· < ·)
  /-- The list of a holder is the active borrows it keeps, in some order. -/
  held : ∀ holder : PlaceId, (ledger.heldIds holder).Perm
    ((ledger.borrows.filter fun borrow => borrow.isActive && borrow.holder == holder).map
      Borrow.id)
  distinct : ∀ holder : PlaceId, (ledger.heldIds holder).Nodup
  /-- The borrows of a place are all shared, if there are any, or one exclusive borrow. -/
  sharing : ∀ place : PlaceId, (∀ grant ∈ ledger.setOf place, grant.kind = .shared) ∨
    ∃ grant, ledger.setOf place = [grant] ∧ grant.kind = .exclusive

section Consistent

variable {ledger : Ledger} (consistent : ledger.Consistent)

include consistent

theorem Consistent.nodup_ids (chosen : Borrow → Bool) :
    ((ledger.borrows.filter chosen).map Borrow.id).Nodup := by
  have ordered := consistent.pairwise_ids.sublist (List.filter_sublist (p := chosen))
  exact List.pairwise_map.mpr (ordered.imp Nat.ne_of_lt)

theorem Consistent.mem_ids {chosen : Borrow → Bool} {id : BorrowId} :
    id ∈ (ledger.borrows.filter chosen).map Borrow.id ↔
      ∃ borrow, ledger.borrows[id]? = some borrow ∧ chosen borrow = true := by
  simp only [List.mem_map, List.mem_filter]
  constructor
  · rintro ⟨borrow, ⟨membership, picked⟩, rfl⟩
    exact ⟨borrow, consistent.getElem?_of_mem membership, picked⟩
  · rintro ⟨borrow, found, picked⟩
    exact ⟨borrow, ⟨List.mem_of_getElem? found, picked⟩, consistent.ids id borrow found⟩

/-- A ledger whose indexes agree with the list of borrows is indexed. -/
theorem Consistent.indexed : ledger.Indexed where
  ids := consistent.ids
  sets := consistent.sets
  ascending place := by
    rw [consistent.sets, List.map_map]
    exact List.pairwise_map.mpr
      (consistent.pairwise_ids.sublist List.filter_sublist)
  held holder := by
    rw [List.perm_ext_iff_of_nodup (consistent.nodup holder) (consistent.nodup_ids _)]
    intro id
    rw [consistent.held, consistent.mem_ids]
    simp only [Bool.and_eq_true, beq_iff_eq]
  distinct := consistent.nodup
  sharing place := by
    rcases (BorrowSet.isValid_iff _).mp (consistent.valid place) with allShared | ⟨grant, single⟩
    · exact .inl allShared
    · cases kind : grant.kind with
      | shared =>
          left
          intro other membership
          rw [single, List.mem_singleton] at membership
          rw [membership]
          exact kind
      | exclusive => exact .inr ⟨grant, single, kind⟩

theorem Consistent.tryRetire_eq_ok (id : BorrowId) (point : Point) :
    ledger.tryRetire id point = .ok (ledger.retire id point) := by
  unfold tryRetire
  split
  · next ended =>
      rw [(consistent.retire_of_not_active point ?_).1]
      intro borrow found
      simpa [found] using ended
  · next borrow picked =>
      obtain ⟨found, active⟩ := Option.filter_eq_some_iff.mp picked
      rw [consistent.remove_of_active found active]
      rfl

theorem Consistent.tryRetireAll_eq_ok (ids : List BorrowId) (point : Point) :
    ledger.tryRetireAll ids point = .ok (ledger.retireAll ids point) :=
  foldlM_eq_ok Consistent (fun _ id inOrder => inOrder.tryRetire_eq_ok id point)
    (fun _ id inOrder => inOrder.retire id point) ids consistent

end Consistent

end Ledger

namespace State

variable (context : Context) (state : State)

variable {state} (consistent : state.ledger.Consistent)

include consistent

theorem tryLend_eq_ok (referent : PlaceId) (kind : BorrowKind) (holder : PlaceId) (point : Point)
    (span : Span) :
    tryLend context state referent kind holder point span =
      .ok (lend context state referent kind holder point span) := by
  unfold tryLend
  cases conflict : state.ledger.conflict? referent kind with
  | some other => rfl
  | none =>
      have free := (consistent.conflict?_eq_none_iff_setOf referent kind).mp conflict
      rw [BorrowSet.add_of_conflict?_eq_none _ ⟨state.ledger.borrows.length, kind⟩ free]
      rfl

theorem tryReportOutliving_eq_ok (place : PlaceId) (point : Point) (span : Span)
    (borrow : Borrow) :
    tryReportOutliving context state place point span borrow =
      .ok (reportOutliving context state place point span borrow) := by
  unfold tryReportOutliving
  rw [(consistent.markDangling borrow.id).tryRetire_eq_ok]
  rfl

theorem tryCheckDrop_eq_ok (place : PlaceId) (point : Point) (span : Span) :
    tryCheckDrop context state place point span =
      .ok (checkDrop context state place point span) :=
  foldlM_eq_ok (fun state : State => state.ledger.Consistent)
    (fun _ borrow inOrder => tryReportOutliving_eq_ok context inOrder place point span borrow)
    (fun state borrow inOrder =>
      (reportOutliving_becomes context state place point span borrow).consistent inOrder)
    _ consistent

end State

/-- A rule that changes borrows, with the places, borrows and points it is applied to. -/
inductive LoanOperation where
  | borrow (referent : PlaceId) (kind : BorrowKind) (holder : PlaceId) (point : Point)
      (span : Span)
  | retire (id : BorrowId) (point : Point)
  | retireHeldBy (holder : PlaceId) (point : Point)
  | transfer (source dest : PlaceId)
  | checkDrop (place : PlaceId) (point : Point) (span : Span)

namespace LoanOperation

def perform (context : Context) (state : State) : LoanOperation → State
  | .borrow referent kind holder point span => state.lend context referent kind holder point span
  | .retire id point => { state with ledger := state.ledger.retire id point }
  | .retireHeldBy holder point => state.retireHeldBy holder point
  | .transfer source dest => state.transfer context source dest
  | .checkDrop place point span => state.checkDrop context place point span

/-- The same, where it is an error that a set refuses a borrow or lacks one. -/
def attempt (context : Context) (state : State) : LoanOperation → Except BorrowSetError State
  | .borrow referent kind holder point span =>
      state.tryLend context referent kind holder point span
  | .retire id point =>
      (fun ledger => { state with ledger }) <$> state.ledger.tryRetire id point
  | .retireHeldBy holder point =>
      (fun ledger => { state with ledger }) <$>
        state.ledger.tryRetireAll (state.ledger.heldIds holder) point
  | .transfer source dest => .ok (state.transfer context source dest)
  | .checkDrop place point span => state.tryCheckDrop context place point span

/-- The state after operations that start from no borrows. -/
def performAll (context : Context) (operations : List LoanOperation) : State :=
  operations.foldl (perform context) {}

def attemptAll (context : Context) (operations : List LoanOperation) :
    Except BorrowSetError State :=
  operations.foldlM (attempt context) {}

section Step

variable (context : Context) {state : State} (consistent : state.ledger.Consistent)

include consistent

theorem attempt_eq_ok (operation : LoanOperation) :
    operation.attempt context state = .ok (operation.perform context state) := by
  cases operation with
  | borrow referent kind holder point span =>
      exact State.tryLend_eq_ok context consistent referent kind holder point span
  | retire id point =>
      simp only [attempt, consistent.tryRetire_eq_ok]
      rfl
  | retireHeldBy holder point =>
      simp only [attempt, consistent.tryRetireAll_eq_ok]
      rfl
  | transfer source dest => rfl
  | checkDrop place point span =>
      exact State.tryCheckDrop_eq_ok context consistent place point span

theorem consistent_perform (operation : LoanOperation) :
    (operation.perform context state).ledger.Consistent := by
  cases operation with
  | borrow referent kind holder point span =>
      simp only [perform, State.lend]
      split
      · exact consistent
      · next admitted => exact consistent.lend context.tree holder point span admitted
  | retire id point => exact consistent.retire id point
  | retireHeldBy holder point => exact consistent.retireHeldBy holder point
  | transfer source dest => exact consistent.transfer context.tree source dest
  | checkDrop place point span =>
      exact (State.checkDrop_becomes context state place point span).consistent consistent

/-- An operation leaves every borrow in its position, and an ended one as it ended. -/
theorem later_perform (operation : LoanOperation) :
    State.Later 0 state (operation.perform context state) := by
  cases operation with
  | borrow referent kind holder point span =>
      simp only [perform, State.lend]
      split
      · exact .of_becomes (State.report_becomes state _ _ _ _ _ _) consistent Borrow.Continues.refl
      · next admitted => exact (State.Later.of_lend consistent admitted).weaken (Nat.zero_le point)
  | retire id point =>
      refine ⟨?_, ?_, List.prefix_refl _⟩
      · intro index borrow found
        refine ⟨_, ?_, Borrow.continues_endedIf (fun borrow => borrow.id == id) point borrow⟩
        simp only [perform, consistent.retire_borrows, List.getElem?_map, found, Option.map_some]
      · exact fun _ _ _ _ => Nat.zero_le _
  | retireHeldBy holder point =>
      exact .of_becomes (State.retireHeldBy_becomes state holder point) consistent
        (Borrow.continues_endedIf _ _)
  | transfer source dest =>
      by_cases same : source = dest
      · rw [same, perform, State.transfer_self]
        exact .refl 0 state
      · exact .of_becomes (State.transfer_becomes context state same) consistent
          (Borrow.continues_passedOn _ _ _)
  | checkDrop place point span =>
      exact .of_becomes (State.checkDrop_becomes context state place point span) consistent
        (Borrow.continues_outlivedIf _ _)

theorem consistent_foldl (operations : List LoanOperation) :
    (operations.foldl (perform context) state).ledger.Consistent := by
  induction operations generalizing state with
  | nil => exact consistent
  | cons operation rest inductionHypothesis =>
      exact inductionHypothesis (consistent_perform context consistent operation)

theorem later_foldl (operations : List LoanOperation) :
    State.Later 0 state (operations.foldl (perform context) state) := by
  induction operations generalizing state with
  | nil => exact .refl 0 state
  | cons operation rest inductionHypothesis =>
      exact (later_perform context consistent operation).trans
        (inductionHypothesis (consistent_perform context consistent operation))

end Step

end LoanOperation

/-- Whatever operations are applied, in any order: no set refuses or lacks a borrow, the ledger
is indexed, and what has ended keeps its end in all further operations. -/
theorem operations_keep_index (context : Context) (operations : List LoanOperation) :
    let state := LoanOperation.performAll context operations
    LoanOperation.attemptAll context operations = .ok state ∧
      state.ledger.Indexed ∧
      ∀ (further : List LoanOperation) (id : BorrowId) (borrow : Borrow) (stop : Point),
        state.ledger.borrows[id]? = some borrow → borrow.retired = some stop →
        ∃ later,
          (LoanOperation.performAll context (operations ++ further)).ledger.borrows[id]? =
            some later ∧ later.retired = some stop := by
  intro state
  have consistent : state.ledger.Consistent :=
    LoanOperation.consistent_foldl context Ledger.consistent_empty operations
  refine ⟨?_, consistent.indexed, ?_⟩
  · exact foldlM_eq_ok (fun state : State => state.ledger.Consistent)
      (fun _ operation inOrder => operation.attempt_eq_ok context inOrder)
      (fun _ operation inOrder => operation.consistent_perform context inOrder)
      operations Ledger.consistent_empty
  · intro further id borrow stop found ended
    obtain ⟨later, foundLater, continues⟩ :=
      (LoanOperation.later_foldl context consistent further).old id borrow found
    refine ⟨later, ?_, continues.retired stop ended⟩
    rw [LoanOperation.performAll, List.foldl_append]
    exact foundLater

end LoanCheck
