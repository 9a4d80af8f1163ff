import LoanCheck.Proofs.Check.Order
import LoanCheck.Proofs.Check.Relaxation

/-!
# Conflicts are told of where borrows are taken

An exclusive borrow that is active is the only active borrow of its referent.  So writing through
it meets no other one, and the only rule that can tell of a conflict is the one that takes a
borrow.
-/

namespace LoanCheck

/-- An exclusive borrow stands alone in the set of its referent. -/
theorem Ledger.Consistent.activeOn_of_exclusive {ledger : Ledger} (consistent : ledger.Consistent)
    {borrow : Borrow} (listed : borrow ∈ ledger.borrows) (active : borrow.isActive = true)
    (exclusive : borrow.kind = .exclusive) : ledger.activeOn borrow.referent = [borrow] := by
  have member : borrow ∈ ledger.activeOn borrow.referent :=
    consistent.mem_activeOn.mpr ⟨listed, active, rfl⟩
  have granted : ledger.setOf borrow.referent =
      (ledger.activeOn borrow.referent).map Borrow.grant := by
    rw [consistent.activeOn_eq]
    exact consistent.sets borrow.referent
  rcases (BorrowSet.isValid_iff _).mp (consistent.valid borrow.referent) with allShared | single
  · have shared : borrow.kind = .shared :=
      allShared borrow.grant (granted ▸ List.mem_map_of_mem member)
    rw [exclusive] at shared
    cases shared
  · obtain ⟨grant, single⟩ := single
    rw [granted, List.map_eq_singleton_iff] at single
    obtain ⟨only, alone, _⟩ := single
    rw [alone] at member ⊢
    rw [List.mem_singleton.mp member]

/-- What is told of a borrow that is refused. -/
def BorrowKind.refusal (referent : Name) : BorrowKind → Violation
  | .shared => .sharedWhileExclusive referent
  | .exclusive => .exclusiveWhileBorrowed referent

/-- A diagnostic that a statement may report: it tells of a conflict only if the statement takes a
borrow, and then of that borrow. -/
def Resolution.MayTell (tree : ScopeTree) (resolution : Resolution) (diagnostic : Diagnostic) :
    Prop :=
  diagnostic.kind = .conflictingBorrow →
    ∃ kind target source, resolution.effect = .borrow kind target source ∧
      diagnostic.message = (kind.refusal (tree.name source.place)).message

namespace State

variable (context : Context) (state : State) (point : Point) (span : Span)

theorem Reports.mayTell {first second : State} {point : Point} {span : Span}
    {kinds : List DiagnosticKind}
    (reports : Reports first (Diagnostic.Anchored point span kinds) second)
    (apart : .conflictingBorrow ∉ kinds) (tree : ScopeTree) (resolution : Resolution) :
    Reports first (resolution.MayTell tree) second := by
  apply reports.imp
  rintro diagnostic ⟨_, _, known⟩ isConflict
  rw [isConflict] at known
  exact absurd known apart

theorem takeSource_reports (source : Use) :
    Reports state
      (Diagnostic.Anchored point span
        [.useAfterMove, .useOfUninitialized, .moveWhileBorrowed, .danglingReference])
      (takeSource context state source point span).1 := by
  cases escaped : source.escaped with
  | true =>
      rw [takeSource_of_escaped context state point span escaped]
      exact (escapedUse_reports context state point span source.place).widen (by decide)
  | false =>
      rw [takeSource_of_inside context state point span escaped]
      have required := requireOwned_reports context state point span source.place "move"
      have consumed := consumeSource_reports context state point span source.place "move"
      exact (required.widen (by decide)).trans (consumed.widen (by decide))

theorem readyToLend_reports (kind : BorrowKind) (target : Target) (source : Use) :
    Reports state
      (Diagnostic.Anchored point span
        [.useAfterMove, .useOfUninitialized, .mutabilityViolation, .danglingReference,
          .writeWhileBorrowed])
      (readyToLend context state kind target source point span) := by
  have assigned := fun state =>
    (assignTarget_reports context state point span target).widen
      (by decide : ∀ kind ∈ _, kind ∈ [.useAfterMove, .useOfUninitialized, .mutabilityViolation,
        .danglingReference, DiagnosticKind.writeWhileBorrowed])
  cases escaped : source.escaped with
  | true =>
      simp only [readyToLend, liveUse, escaped, if_true]
      have used := escapedUse_reports context state point span source.place
      exact (used.widen (by decide)).trans (assigned _)
  | false =>
      simp only [readyToLend, liveUse, escaped, Bool.false_eq_true, if_false]
      have required := requireOwned_reports context state point span source.place "borrow"
      have checked := checkReferent_reports context state point span kind source.place
      exact ((required.widen (by decide)).trans (checked.widen (by decide))).trans (assigned _)

/-- A borrow that is refused is told of as such. -/
theorem lend_tells {resolution : Resolution} {kind : BorrowKind} {target : Target} {source : Use}
    (lends : resolution.effect = .borrow kind target source) (holder : PlaceId) :
    Reports state (resolution.MayTell context.tree)
      (lend context state source.place kind holder point span) := by
  unfold lend
  split
  · refine ⟨_, rfl, ?_⟩
    intro diagnostic told _
    cases List.mem_singleton.mp told
    refine ⟨kind, target, source, lends, ?_⟩
    cases kind <;> rfl
  · exact .of_eq rfl

section Write

variable {context state} (consistent : state.ledger.Consistent) (place : PlaceId)

include consistent

/-- An active exclusive borrow is written through in silence, and a shared one tells of no
conflict. -/
theorem writeThroughBorrow_reports_of_listed {borrow : Borrow}
    (listed : borrow ∈ state.ledger.borrows) (active : borrow.isActive = true) :
    Reports state (Diagnostic.Anchored point span [.mutabilityViolation])
      (writeThroughBorrow context state place point span borrow) := by
  cases kind : borrow.kind with
  | shared =>
      simp only [writeThroughBorrow, kind]
      exact report_reports state point span (by simp [Violation.kind]) _ _ _
  | exclusive =>
      have alone := consistent.activeOn_of_exclusive listed active kind
      have writable : state.ledger.Writable borrow := by
        refine ⟨kind, ?_⟩
        rw [alone]
        exact List.forall_mem_singleton.mpr rfl
      rw [writeThroughBorrow_of_writable writable]
      exact .refl state

theorem foldl_writeThroughBorrow_reports {borrows : List Borrow}
    (kept : ∀ borrow ∈ borrows, borrow ∈ state.ledger.borrows ∧ borrow.isActive = true) :
    Reports state (Diagnostic.Anchored point span [.mutabilityViolation])
      (borrows.foldl
        (fun state borrow => writeThroughBorrow context state place point span borrow) state) := by
  induction borrows generalizing state with
  | nil => exact .refl state
  | cons borrow rest inductionHypothesis =>
      have becomes := writeThroughBorrow_becomes context state place point span borrow
      have same := becomes.borrows consistent
      rw [List.map_id] at same
      obtain ⟨listed, active⟩ := kept borrow List.mem_cons_self
      apply (writeThroughBorrow_reports_of_listed point span consistent place listed active).trans
      apply inductionHypothesis (becomes.consistent consistent)
      intro later inRest
      rw [same]
      exact kept later (List.mem_cons_of_mem borrow inRest)

theorem writeOwned_reports_of_consistent :
    Reports state (Diagnostic.Anchored point span [.mutabilityViolation, .writeWhileBorrowed])
      (writeOwned context state place point span) := by
  apply writeOwned_reports_of_through context state point span (by decide)
  intro judged same
  rw [← same] at consistent
  refine (foldl_writeThroughBorrow_reports point span consistent place ?_).widen (by decide)
  intro borrow held
  obtain ⟨listed, active, _⟩ := consistent.mem_heldBy.mp held
  exact ⟨listed, active⟩

end Write

/-- A statement tells of a conflict only if it takes a borrow. -/
theorem step_tells (consistent : state.ledger.Consistent) (resolution : Resolution) :
    Reports state (resolution.MayTell context.tree) (state.step context resolution) := by
  obtain ⟨point, scope, span, effect⟩ := resolution
  cases effect with
  | enter => exact .refl state
  | exit closes =>
      exact (exitScope_reports context state point span closes).mayTell (by decide) _ _
  | declare target =>
      exact (declareFresh_reports context state point span _ _).mayTell (by decide) _ _
  | bind target source mutable copy =>
      have rebound := fun state =>
        (rebindTarget_reports context state point span target mutable copy).mayTell (by decide)
          context.tree ⟨point, scope, span, .bind target source mutable copy⟩
      cases source with
      | none => exact rebound state
      | some source =>
          simp only [step, bind_some]
          apply Reports.trans _ (passOn_reports context _ _ _ _)
          have taken := takeSource_reports context state point span source
          exact (taken.mayTell (by decide) _ _).trans (rebound _)
  | move target source =>
      simp only [step, move_eq]
      apply Reports.trans _ (passOn_reports context _ _ _ _)
      have taken := takeSource_reports context state point span source
      have assigned := assignTarget_reports context
        (takeSource context state source point span).1 point span target
      exact (taken.mayTell (by decide) _ _).trans (assigned.mayTell (by decide) _ _)
  | borrow kind target source =>
      simp only [step, borrow_eq]
      have ready := (readyToLend_reports context state point span kind target source).mayTell
        (by decide) context.tree ⟨point, scope, span, .borrow kind target source⟩
      split
      · exact ready
      · exact ready.trans (lend_tells context _ point span rfl target.place)
  | write source =>
      cases escaped : source.escaped with
      | true =>
          simp only [step, write, liveUse, escaped, if_true, Bool.false_eq_true, if_false]
          exact (escapedUse_reports context state point span source.place).mayTell (by decide) _ _
      | false =>
          simp only [step, write, liveUse, escaped, Bool.false_eq_true, if_false, if_true]
          have required := requireOwned_reports context state point span source.place "write to"
          have kept := (requireOwned_becomes context state source.place point "write to"
            span).consistent consistent
          apply (required.mayTell (by decide) _ _).trans
          split
          · exact (writeOwned_reports_of_consistent point span kept source.place).mayTell
              (by decide) _ _
          · exact .refl _
  | read source =>
      cases escaped : source.escaped with
      | true =>
          simp only [step, read, liveUse, escaped, if_true, Bool.false_eq_true, if_false]
          exact (escapedUse_reports context state point span source.place).mayTell (by decide) _ _
      | false =>
          simp only [step, read, liveUse, escaped, Bool.false_eq_true, if_false, if_true]
          exact (requireOwned_reports context state point span source.place "read").mayTell
            (by decide) _ _
  | consume source =>
      cases escaped : source.escaped with
      | true =>
          simp only [step, consume, liveUse, escaped, if_true, Bool.false_eq_true, if_false]
          exact (escapedUse_reports context state point span source.place).mayTell (by decide) _ _
      | false =>
          simp only [step, consume, liveUse, escaped, Bool.false_eq_true, if_false, if_true]
          have required := requireOwned_reports context state point span source.place "consume"
          have consumed := consumeSource_reports context state point span source.place "consume"
          apply Reports.then_ledger
          exact (required.mayTell (by decide) _ _).trans (consumed.mayTell (by decide) _ _)

end State

namespace CodeUnit

variable {unit : CodeUnit} {tree : ScopeTree} {point : Point}

/-- Whatever a run tells of a statement, that statement may tell. -/
theorem mayTell_of_run (built : unit.scopeTree = .ok tree) (config : Config)
    {resolution : Resolution} (found : tree.resolved[point]? = some resolution)
    {diagnostic : Diagnostic}
    (told : diagnostic ∈ (Context.ofTree config tree).run.diagnostics)
    (at_point : diagnostic.point = (point : Point)) : resolution.MayTell tree diagnostic := by
  have leads : Builder.Leads (Context.ofTree config tree).tree 0 {} _ :=
    (Builder.leads_of_scopeTree built).2
  have listed : (Context.ofTree config tree).tree.resolved[point]? = some resolution := found
  obtain ⟨_, _, _, _, sound⟩ := Context.crossing_at leads listed
  have all := Context.filter_run_eq leads listed
  obtain ⟨added, same, fits⟩ := State.step_tells (Context.ofTree config tree) _ sound.consistent
    resolution
  rw [Context.stateBefore_succ listed, Context.advance, State.retireDead_diagnostics, same] at all
  rw [List.append_cancel_left all] at fits
  exact fits diagnostic (List.mem_filter.mpr ⟨told, beq_iff_eq.mpr at_point⟩)

theorem borrow_of_conflict (built : unit.scopeTree = .ok tree) (config : Config)
    {diagnostic : Diagnostic} (told : diagnostic ∈ (Context.ofTree config tree).run.diagnostics)
    (isConflict : diagnostic.kind = .conflictingBorrow) :
    ∃ (point : Point) (statement : Statement) (kind : BorrowKind) (dest referent name : Name),
      unit.statements[point]? = some statement ∧ diagnostic.point = (point : Point) ∧
        statement.action = .borrow kind dest referent ∧
        diagnostic.message = (kind.refusal name).message := by
  have leads : Builder.Leads (Context.ofTree config tree).tree 0 {} _ :=
    (Builder.leads_of_scopeTree built).2
  have inOrder := inOrder_stateBefore built config (Nat.le_refl _)
  rw [← length_of_scopeTree built] at inOrder
  have toldBefore := told
  rw [Context.run_diagnostics leads] at toldBefore
  obtain ⟨point, statement, stated, _, at_point, _⟩ := inOrder.anchored diagnostic toldBefore
  obtain ⟨resolution, found, performs⟩ := performs_at built stated
  obtain ⟨kind, target, source, lends, message⟩ :=
    mayTell_of_run built config found told at_point isConflict
  rw [lends] at performs
  generalize taken : statement.action = action at performs
  cases performs with
  | borrow _ dest referent =>
      exact ⟨point, statement, kind, dest, referent, _, stated, at_point, taken, message⟩

/-- A conflict is told of only by statements that take a borrow, in the words for that kind of
borrow.  A write tells of none: when it is reached, each exclusive borrow that the written place
keeps is the only active borrow of its referent, so that writing through it meets no other. -/
theorem conflicts_where_borrows_are_taken {config : Config} {recordStates : Bool}
    {outcome : Outcome} (checked : unit.check config recordStates = .ok outcome) :
    (∀ diagnostic ∈ outcome.diagnostics, diagnostic.kind = .conflictingBorrow →
      ∃ (point : Point) (statement : Statement) (kind : BorrowKind) (dest referent name : Name),
        unit.statements[point]? = some statement ∧ diagnostic.point = (point : Point) ∧
          statement.action = .borrow kind dest referent ∧
          diagnostic.message = (kind.refusal name).message) ∧
      ∀ (point : Point) (statement : Statement) (place : Name),
        unit.statements[point]? = some statement → statement.action = .write place →
        ∃ (resolution : Resolution) (source : Use),
          outcome.context.tree.resolved[point]? = some resolution ∧
          resolution.effect = .write source ∧
          let ledger := (outcome.context.stateBefore point).ledger
          (∀ borrow, borrow ∈ ledger.heldBy source.place ↔
            borrow ∈ ledger.borrows ∧ borrow.isActive = true ∧ borrow.holder = source.place) ∧
          ∀ borrow ∈ ledger.heldBy source.place, borrow.kind = .exclusive →
            ledger.activeOn borrow.referent = [borrow] ∧
              ∀ other ∈ ledger.borrows, other.isActive = true →
                other.referent = borrow.referent → other = borrow := by
  obtain ⟨tree, built, context, final⟩ := scopeTree_of_check checked
  rw [Outcome.diagnostics, final, context]
  refine ⟨fun _ told isConflict => borrow_of_conflict built config told isConflict, ?_⟩
  intro point statement place stated writes
  obtain ⟨resolution, found, performs⟩ := performs_at built stated
  rw [writes] at performs
  generalize resolves : resolution.effect = effect at performs
  cases performs with
  | write _ source =>
      have leads : Builder.Leads (Context.ofTree config tree).tree 0 {} _ :=
        (Builder.leads_of_scopeTree built).2
      obtain ⟨_, _, _, _, sound⟩ := Context.crossing_at leads found
      have consistent := sound.consistent
      refine ⟨resolution, source, found, resolves, fun borrow => consistent.mem_heldBy, ?_⟩
      intro borrow held exclusive
      obtain ⟨listed, active, _⟩ := consistent.mem_heldBy.mp held
      have alone := consistent.activeOn_of_exclusive listed active exclusive
      refine ⟨alone, ?_⟩
      intro other otherListed otherActive sameReferent
      have member := consistent.mem_activeOn.mpr ⟨otherListed, otherActive, sameReferent⟩
      rw [alone] at member
      exact List.mem_singleton.mp member

end CodeUnit

/-- A second borrow of what is exclusively borrowed is refused; then the value is changed through
the exclusive one. -/
def writtenThrough : CodeUnit := .ofActions "written through" [
  .bind (.str "x") (.bool true) none (.bool false) (.bool false),
  .borrow .exclusive (.str "r") (.str "x"),
  .borrow .shared (.str "s") (.str "x"),
  .write (.str "r")]

/-- The conflict is told of at the second borrow, and the write through `r` finds its borrow
alone. -/
theorem writtenThrough_conflicts :
    ∃ outcome, writtenThrough.check {} false = .ok outcome ∧
      outcome.diagnostics.map (fun diagnostic => (diagnostic.kind, diagnostic.point)) =
        [(.conflictingBorrow, 2)] ∧
      (∀ diagnostic ∈ outcome.diagnostics, diagnostic.kind = .conflictingBorrow →
        ∃ (point : Point) (statement : Statement) (kind : BorrowKind) (dest referent name : Name),
          writtenThrough.statements[point]? = some statement ∧
            diagnostic.point = (point : Point) ∧ statement.action = .borrow kind dest referent ∧
            diagnostic.message = (kind.refusal name).message) ∧
      ∃ borrow ∈ (outcome.context.stateBefore 3).ledger.heldBy 1, borrow.kind = .exclusive ∧
        (outcome.context.stateBefore 3).ledger.activeOn borrow.referent = [borrow] := by
  have known : ((writtenThrough.check {} false).toOption.map fun outcome =>
      (outcome.diagnostics.map fun diagnostic => (diagnostic.kind, diagnostic.point),
        (outcome.context.tree.resolved[3]?).bind fun resolution => resolution.effect.source?,
        ((outcome.context.stateBefore 3).ledger.heldBy 1).map Borrow.kind)) =
      some ([(.conflictingBorrow, 2)], some ⟨1, false⟩, [.exclusive]) := by
    decide +kernel
  obtain ⟨outcome, found, facts⟩ := Option.map_eq_some_iff.mp known
  rw [Prod.mk.injEq, Prod.mk.injEq] at facts
  obtain ⟨told, used, kinds⟩ := facts
  have checked := toOption_eq_some_iff.mp found
  obtain ⟨conflicts, writes⟩ := CodeUnit.conflicts_where_borrows_are_taken checked
  obtain ⟨resolution, source, resolved, effect, _, alone⟩ := writes 3 _ _ rfl rfl
  rw [resolved, Option.bind_some, effect] at used
  cases used
  obtain ⟨borrow, held, exclusive⟩ := List.map_eq_singleton_iff.mp kinds
  have member : borrow ∈ (outcome.context.stateBefore 3).ledger.heldBy 1 := by simp [held]
  exact ⟨outcome, checked, told, conflicts, borrow, member, exclusive,
    (alone borrow member exclusive).1⟩

end LoanCheck
