import LoanCheck.Check.Step
import LoanCheck.Proofs.Loan.Ledger
import LoanCheck.Proofs.Ownership

/-!
# What each rule changes

A rule reports what is broken and makes its change all the same.  `State.Becomes` states
the change: what happens to each borrow and to ownership, while reports are only added.
The changes of rules that are applied one after the other compose.
-/

namespace LoanCheck

namespace State

/-- As long as nothing is reported, no borrow dangles and no escape was noted. -/
def Quiet (state : State) : Prop :=
  state.diagnostics = [] →
    state.escapes = [] ∧ ∀ borrow ∈ state.ledger.borrows, borrow.dangling = false

/-- Every borrow undergoes one change and ownership another, and reports are added. -/
structure Becomes (before : State) (change : Borrow → Borrow) (owners : Ownership → Ownership)
    (after : State) : Prop where
  consistent : before.ledger.Consistent → after.ledger.Consistent
  borrows : before.ledger.Consistent →
    after.ledger.borrows = before.ledger.borrows.map change
  ownership : after.ownership = owners before.ownership
  reports : before.diagnostics <+: after.diagnostics
  quiet : before.ledger.Consistent → before.Quiet → after.Quiet

namespace Becomes

variable {first second third : State} {change next : Borrow → Borrow}
  {owners later : Ownership → Ownership}

theorem refl (state : State) : Becomes state id id state where
  consistent consistent := consistent
  borrows _ := (List.map_id _).symm
  ownership := rfl
  reports := List.prefix_refl _
  quiet _ quiet := quiet

theorem trans (left : Becomes first change owners second)
    (right : Becomes second next later third) :
    Becomes first (next ∘ change) (later ∘ owners) third where
  consistent consistent := right.consistent (left.consistent consistent)
  borrows consistent := by
    rw [right.borrows (left.consistent consistent), left.borrows consistent, List.map_map]
  ownership := by
    rw [right.ownership, left.ownership]
    rfl
  reports := left.reports.trans right.reports
  quiet consistent quiet := right.quiet (left.consistent consistent) (left.quiet consistent quiet)

theorem after_reports (left : Becomes first id id second)
    (right : Becomes second next later third) : Becomes first next later third :=
  left.trans right

/-- A state in which nothing is reported comes from one in which nothing was. -/
theorem silent_before (becomes : Becomes first change owners second)
    (silent : second.diagnostics = []) : first.diagnostics = [] := by
  have reports := becomes.reports
  rw [silent] at reports
  exact List.prefix_nil.mp reports

/-- Where borrows stay as they are, so do the active ones of each place. -/
theorem activeOn_eq (becomes : Becomes first id owners second)
    (consistent : first.ledger.Consistent) (place : PlaceId) :
    second.ledger.activeOn place = first.ledger.activeOn place := by
  rw [(becomes.consistent consistent).activeOn_eq, consistent.activeOn_eq,
    becomes.borrows consistent, List.map_id]

/-- A change that marks no borrow as dangling keeps a state quiet. -/
theorem of_unmarked {state : State} {ledger : Ledger}
    (consistent : state.ledger.Consistent → ledger.Consistent)
    (borrows : state.ledger.Consistent → ledger.borrows = state.ledger.borrows.map change)
    (unmarked : ∀ borrow, (change borrow).dangling = borrow.dangling) :
    Becomes state change id { state with ledger } where
  consistent := consistent
  borrows := borrows
  ownership := rfl
  reports := List.prefix_refl _
  quiet inOrder quiet silent := by
    refine ⟨(quiet silent).1, ?_⟩
    simp only [borrows inOrder, List.mem_map]
    rintro _ ⟨borrow, membership, rfl⟩
    rw [unmarked]
    exact (quiet silent).2 borrow membership

/-- Only what happens to the borrows of the ledger matters. -/
theorem congr (becomes : Becomes first change owners second)
    (same : first.ledger.Consistent → ∀ borrow ∈ first.ledger.borrows,
      change borrow = next borrow) : Becomes first next owners second :=
  { becomes with
    borrows := fun consistent =>
      (becomes.borrows consistent).trans (List.map_congr_left (same consistent)) }

theorem of_ownership (state : State) (owners : Ownership → Ownership) :
    Becomes state id owners { state with ownership := owners state.ownership } where
  consistent consistent := consistent
  borrows _ := (List.map_id _).symm
  ownership := rfl
  reports := List.prefix_refl _
  quiet _ quiet := quiet

end Becomes

section Reports

variable (context : Context) (state : State)

theorem report_becomes (violation : Violation) (point : Point) (place : Name)
    (borrow : Option BorrowId) (span : Span) (notes : List String) :
    Becomes state id id (state.report violation point place borrow span notes) where
  consistent consistent := consistent
  borrows _ := (List.map_id _).symm
  ownership := rfl
  reports := List.prefix_append _ _
  quiet _ _ silent := by simp [report] at silent

theorem reportDuplicate_becomes (place : PlaceId) (point : Point) (span : Span)
    (notes : List String) :
    Becomes state id id (reportDuplicate context state place point span notes) :=
  report_becomes state _ _ _ _ _ _

theorem requireOwned_becomes (place : PlaceId) (point : Point) (action : String) (span : Span) :
    Becomes state id id (requireOwned context state place point action span).1 := by
  unfold requireOwned
  split
  · exact report_becomes state _ _ _ _ _ _
  · exact report_becomes state _ _ _ _ _ _
  · exact .refl state
  · exact .refl state

theorem checkReferent_becomes (kind : BorrowKind) (place : PlaceId) (point : Point)
    (span : Span) :
    Becomes state id id (checkReferent context state kind place point span) := by
  have required := requireOwned_becomes context state place point "borrow" span
  simp only [checkReferent]
  split
  · exact required.trans (report_becomes _ _ _ _ _ _ _)
  · exact required

theorem writeThroughBorrow_becomes (holder : PlaceId) (point : Point) (span : Span)
    (borrow : Borrow) :
    Becomes state id id (writeThroughBorrow context state holder point span borrow) := by
  simp only [writeThroughBorrow]
  split
  · exact report_becomes state _ _ _ _ _ _
  · split
    · exact .refl state
    · exact report_becomes state _ _ _ _ _ _

/-- Writing through several borrows only reports. -/
theorem foldl_writeThroughBorrow_becomes (holder : PlaceId) (point : Point) (span : Span)
    (borrows : List Borrow) (state : State) :
    Becomes state id id (borrows.foldl
      (fun state borrow => writeThroughBorrow context state holder point span borrow) state) := by
  induction borrows generalizing state with
  | nil => exact .refl state
  | cons borrow rest inductionHypothesis =>
      exact (writeThroughBorrow_becomes context state holder point span borrow).trans
        (inductionHypothesis _)

theorem writeOwned_becomes (place : PlaceId) (point : Point) (span : Span) :
    Becomes state id id (writeOwned context state place point span) := by
  unfold writeOwned
  extract_lets name isReference judged
  have onlyReports : Becomes state id id judged := by
    unfold judged
    split
    · exact report_becomes state _ _ _ _ _ _
    · exact .refl state
  clear_value judged
  refine onlyReports.after_reports ?_
  split
  · exact report_becomes judged _ _ _ _ _ _
  · split
    · exact foldl_writeThroughBorrow_becomes context place point span _ judged
    · exact .refl judged

end Reports

section Rules

variable (context : Context) (state : State)

theorem bindPlace_becomes (place : PlaceId) (point : Point) (mutable copy : Flag) (fresh : Bool)
    (span : Span) (notes : List String) :
    Becomes state id (fun ownership => ownership.rebind place mutable copy)
      (bindPlace context state place point mutable copy fresh span notes).1 := by
  simp only [bindPlace]
  refine Becomes.after_reports ?_ (Becomes.of_ownership _ _)
  split
  · exact reportDuplicate_becomes context state place point span notes
  · exact .refl state

theorem assignPlace_becomes (place : PlaceId) (point : Point) (span : Span) :
    Becomes state id (fun ownership => ownership.fill context.tree place)
      (assignPlace context state place point span).1 := by
  simp only [assignPlace]
  refine Becomes.after_reports ?_ (Becomes.of_ownership _ _)
  split
  · exact report_becomes state _ _ _ _ _ _
  · exact .refl state

theorem retireHeldBy_becomes (holder : PlaceId) (point : Point) :
    Becomes state (Borrow.endedIf (fun borrow => borrow.holder == holder) point) id
      (state.retireHeldBy holder point) := by
  apply Becomes.of_unmarked
  · exact fun consistent => consistent.retireHeldBy holder point
  · exact fun consistent => consistent.retireHeldBy_borrows holder point
  · intro borrow
    unfold Borrow.endedIf
    split <;> rfl

/-- The borrows whose holder is not used any more end after the statement. -/
theorem retireDead_becomes (point : Point) :
    Becomes state
      (Borrow.endedIf (fun borrow => context.liveness.any fun liveness =>
        !liveness.liveAfter borrow.holder point) (point + 1)) id
      (retireDead context state point) := by
  unfold retireDead
  split
  · next unknown =>
      have unchanged : Borrow.endedIf (fun borrow => context.liveness.any fun liveness =>
          !liveness.liveAfter borrow.holder point) (point + 1) = id := by
        funext borrow
        simp [Borrow.endedIf, unknown]
      rw [unchanged]
      exact .refl state
  · next liveness known =>
      apply Becomes.of_unmarked
      · exact fun consistent => consistent.retireAll _ _
      · intro consistent
        rw [consistent.retireAll_borrows]
        apply List.map_congr_left
        intro borrow membership
        simp only [Borrow.endedIf, Ledger.active, List.filter_filter,
          consistent.contains_ids _ membership, known, Option.any_some]
        cases borrow.isActive <;> simp
      · intro borrow
        unfold Borrow.endedIf
        split <;> rfl

theorem transfer_becomes {source dest : PlaceId} (different : source ≠ dest) :
    Becomes state (Borrow.passedOn context.tree source dest) id
      (transfer context state source dest) := by
  apply Becomes.of_unmarked
  · exact fun consistent => consistent.transfer context.tree source dest
  · exact fun consistent => consistent.transfer_borrows context.tree different
  · intro borrow
    unfold Borrow.passedOn
    split <;> rfl

theorem transfer_self (place : PlaceId) : transfer context state place place = state := by
  simp [transfer, Ledger.transfer]

/-- A borrow that outlives its referent is ended and dangles. -/
theorem reportOutliving_becomes (place : PlaceId) (point : Point) (span : Span)
    (borrow : Borrow) :
    Becomes state
      (Borrow.endedIf (fun other => other.id == borrow.id) point ∘
        Borrow.markedIf (some borrow.id)) id
      (reportOutliving context state place point span borrow) where
  consistent consistent := (consistent.markDangling borrow.id).retire borrow.id point
  borrows consistent := by
    have marked := consistent.markDangling borrow.id
    simp only [reportOutliving]
    rw [marked.retire_borrows, consistent.markDangling_borrows, List.map_map]
  ownership := rfl
  reports := List.prefix_append _ _
  quiet _ _ silent := by simp [reportOutliving, report] at silent

/-- Each of several borrows is ended, unless it was before, and dangles. -/
theorem foldl_reportOutliving_becomes (place : PlaceId) (point : Point) (span : Span)
    (borrows : List Borrow) (state : State) :
    Becomes state
      (fun borrow =>
        if (borrows.map Borrow.id).contains borrow.id then
          { borrow with retired := borrow.retired.or (some point), dangling := true }
        else borrow) id
      (borrows.foldl
        (fun state borrow => reportOutliving context state place point span borrow) state) := by
  induction borrows generalizing state with
  | nil => exact .refl state
  | cons first rest inductionHypothesis =>
      refine ((reportOutliving_becomes context state place point span first).trans
        (inductionHypothesis _)).congr ?_
      intro _ borrow _
      by_cases same : borrow.id = first.id
      · cases ended : borrow.retired <;>
          simp [Borrow.endedIf, Borrow.markedIf, Borrow.isActive, same, ended]
      · simp [Borrow.endedIf, Borrow.markedIf, same, Ne.symm same]

theorem checkDrop_becomes (place : PlaceId) (point : Point) (span : Span) :
    Becomes state (Borrow.outlivedIf (· == place) point) id
      (checkDrop context state place point span) := by
  refine (foldl_reportOutliving_becomes context place point span _ state).congr ?_
  intro consistent borrow membership
  rw [consistent.activeOn_eq, consistent.contains_ids _ membership]
  unfold Borrow.outlivedIf
  split
  · next chosen =>
      have active : borrow.retired = none := by
        simpa [Borrow.isActive] using (Bool.and_eq_true_iff.mp chosen).1
      rw [active]
      rfl
  · rfl

end Rules

end State

end LoanCheck
