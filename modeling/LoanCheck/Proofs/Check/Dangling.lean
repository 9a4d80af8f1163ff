import LoanCheck.Proofs.Check.Extents
import LoanCheck.Proofs.Check.Reports

/-!
# Dangling references are reported once

Two rules report dangling references: one when a place is dropped, of every borrow of it
that is still active, and one when a reference is used after its scope, of the last borrow
that it kept.  They share a flag on each borrow.  `State.Accounted` says that the flag and
the reports agree; every rule keeps it, because a borrow that dangles has ended.
-/

namespace LoanCheck

/-- Whether a diagnostic tells of a borrow that it dangles. -/
def Diagnostic.blames (id : BorrowId) (diagnostic : Diagnostic) : Bool :=
  diagnostic.kind == .danglingReference && diagnostic.borrow == some id

namespace State

/-- How often it was told of a borrow that it dangles. -/
def blameCount (state : State) (id : BorrowId) : Nat :=
  state.diagnostics.countP (Diagnostic.blames id)

/-- Something has been reported as dangling. -/
def TellsDangling (state : State) : Prop :=
  ∃ diagnostic ∈ state.diagnostics, diagnostic.kind = .danglingReference

/-- The borrows that dangle are those that were reported, each of them once. -/
structure Accounted (state : State) : Prop where
  consistent : state.ledger.Consistent
  once : ∀ borrow ∈ state.ledger.borrows,
    state.blameCount borrow.id = if borrow.dangling then 1 else 0
  unheard : ∀ id, state.ledger.borrows.length ≤ id → state.blameCount id = 0
  /-- A borrow that dangles has ended. -/
  idle : ∀ borrow ∈ state.ledger.borrows, borrow.dangling = true → borrow.isActive = false
  escapes : state.escapes ≠ [] → state.TellsDangling

theorem accounted_empty : Accounted {} where
  consistent := Ledger.consistent_empty
  once := fun _ membership => absurd membership List.not_mem_nil
  unheard := fun _ _ => rfl
  idle := fun _ membership => absurd membership List.not_mem_nil
  escapes := fun noted => absurd rfl noted

section Reports

variable {before after : State} {described : Diagnostic → Prop}

theorem Reports.tellsDangling (reports : Reports before described after)
    (tells : before.TellsDangling) : after.TellsDangling := by
  obtain ⟨diagnostic, membership, kind⟩ := tells
  obtain ⟨added, same, _⟩ := reports
  refine ⟨diagnostic, ?_, kind⟩
  rw [same]
  exact List.mem_append_left added membership

theorem Reports.blameCount_eq
    (reports : Reports before (fun diagnostic => diagnostic.kind ≠ .danglingReference) after)
    (id : BorrowId) : after.blameCount id = before.blameCount id := by
  have kept : after.diagnostics.filter (Diagnostic.blames id) =
      before.diagnostics.filter (Diagnostic.blames id) := by
    apply reports.filter_eq
    intro diagnostic other
    rw [Diagnostic.blames, beq_eq_false_iff_ne.mpr other, Bool.false_and]
  rw [blameCount, blameCount, List.countP_eq_length_filter, List.countP_eq_length_filter, kept]

end Reports

end State

namespace Borrow

theorem endedIf_dangling (chosen : Borrow → Bool) (point : Point) (borrow : Borrow) :
    (borrow.endedIf chosen point).dangling = borrow.dangling := by
  unfold endedIf
  split <;> rfl

theorem passedOn_dangling (tree : ScopeTree) (source dest : PlaceId) (borrow : Borrow) :
    (borrow.passedOn tree source dest).dangling = borrow.dangling := by
  unfold passedOn
  split <;> rfl

end Borrow

namespace State

theorem report_tellsDangling (state : State) {violation : Violation}
    (kind : violation.kind = .danglingReference) (point : Point) (place : Name)
    (borrow : Option BorrowId) (span : Span) (notes : List String) :
    (state.report violation point place borrow span notes).TellsDangling :=
  ⟨_, List.mem_append_right _ (List.mem_singleton_self _), kind⟩

theorem blameCount_report (state : State) (violation : Violation) (point : Point) (place : Name)
    (borrow : Option BorrowId) (span : Span) (notes : List String)
    (kind : violation.kind = .danglingReference) (id : BorrowId) :
    (state.report violation point place borrow span notes).blameCount id =
      state.blameCount id + if borrow = some id then 1 else 0 := by
  simp [blameCount, report, List.countP_append, Diagnostic.blames, kind]

namespace Accounted

variable (context : Context) {state next : State}

/-- A rule that marks no borrow and tells of none that it dangles keeps the account. -/
theorem of_becomes {change : Borrow → Borrow} {owners : Ownership → Ownership}
    (accounted : state.Accounted) (becomes : Becomes state change owners next)
    (continues : ∀ borrow, Borrow.Continues borrow (change borrow))
    (unmarked : ∀ borrow, (change borrow).dangling = borrow.dangling)
    (reports : Reports state (fun diagnostic => diagnostic.kind ≠ .danglingReference) next)
    (noted : next.escapes = state.escapes) : next.Accounted := by
  have borrows := becomes.borrows accounted.consistent
  refine ⟨becomes.consistent accounted.consistent, ?_, ?_, ?_, ?_⟩
  · rw [borrows]
    intro _ membership
    obtain ⟨borrow, listed, rfl⟩ := List.mem_map.mp membership
    rw [reports.blameCount_eq, (continues borrow).id, unmarked]
    exact accounted.once borrow listed
  · rw [borrows, List.length_map]
    intro id outside
    rw [reports.blameCount_eq]
    exact accounted.unheard id outside
  · rw [borrows]
    intro _ membership dangling
    obtain ⟨borrow, listed, rfl⟩ := List.mem_map.mp membership
    rw [unmarked] at dangling
    have ended := accounted.idle borrow listed dangling
    by_contra stillActive
    rw [Bool.not_eq_false] at stillActive
    rw [(continues borrow).active_before stillActive] at ended
    cases ended
  · rw [noted]
    intro escaped
    exact reports.tellsDangling (accounted.escapes escaped)

theorem with_ownership (accounted : state.Accounted) (ownership : Ownership) :
    Accounted { state with ownership } :=
  ⟨accounted.consistent, accounted.once, accounted.unheard, accounted.idle, accounted.escapes⟩

theorem report {violation : Violation} (accounted : state.Accounted)
    (other : violation.kind ≠ .danglingReference) (point : Point) (place : Name)
    (borrow : Option BorrowId) (span : Span) (notes : List String) :
    (state.report violation point place borrow span notes).Accounted := by
  apply accounted.of_becomes (report_becomes state violation point place borrow span notes)
    Borrow.Continues.refl (fun _ => rfl) _ rfl
  apply (report_reports state point span (List.mem_singleton_self violation.kind) place borrow
    notes).imp
  rintro diagnostic ⟨_, _, kind⟩
  rw [List.mem_singleton.mp kind]
  exact other

theorem retireHeldBy (accounted : state.Accounted) (holder : PlaceId) (point : Point) :
    (state.retireHeldBy holder point).Accounted := by
  apply accounted.of_becomes (retireHeldBy_becomes state holder point) _ _ (.of_eq rfl) rfl
  · exact Borrow.continues_endedIf _ point
  · exact Borrow.endedIf_dangling _ point

theorem transfer (accounted : state.Accounted) (source dest : PlaceId) :
    (transfer context state source dest).Accounted := by
  by_cases same : source = dest
  · rw [same, transfer_self]
    exact accounted
  · apply accounted.of_becomes (transfer_becomes context state same) _ _ (.of_eq rfl) rfl
    · exact Borrow.continues_passedOn context.tree source dest
    · exact Borrow.passedOn_dangling context.tree source dest

theorem retireDead (accounted : state.Accounted) (point : Point) :
    (retireDead context state point).Accounted := by
  apply accounted.of_becomes (retireDead_becomes context state point) _ _
    (.of_eq (retireDead_diagnostics context state point))
  · unfold State.retireDead
    split <;> rfl
  · exact Borrow.continues_endedIf _ _
  · exact Borrow.endedIf_dangling _ _

theorem requireOwned (accounted : state.Accounted) (place : PlaceId) (point : Point)
    (action : String) (span : Span) :
    (requireOwned context state place point action span).1.Accounted := by
  unfold State.requireOwned
  split
  · exact accounted.report (by simp [Violation.kind]) _ _ _ _ _
  · exact accounted.report (by simp [Violation.kind]) _ _ _ _ _
  · exact accounted
  · exact accounted

theorem consumeSource (accounted : state.Accounted) (place : PlaceId) (point : Point)
    (span : Span) (action : String) :
    (consumeSource context state place point span action).Accounted := by
  have required := accounted.requireOwned context place point action span
  unfold State.consumeSource
  generalize State.requireOwned context state place point action span = answer at required
  obtain ⟨judged, owned⟩ := answer
  apply with_ownership
  split
  · split
    · exact required
    · exact required.report (by simp [Violation.kind]) _ _ _ _ _
  · exact required

theorem checkReferent (accounted : state.Accounted) (kind : BorrowKind) (place : PlaceId)
    (point : Point) (span : Span) :
    (checkReferent context state kind place point span).Accounted := by
  have required := accounted.requireOwned context place point "borrow" span
  simp only [State.checkReferent]
  split
  · exact required.report (by simp [Violation.kind]) _ _ _ _ _
  · exact required

theorem bindPlace (accounted : state.Accounted) (place : PlaceId) (point : Point)
    (mutable copy : Flag) (fresh : Bool) (span : Span) (notes : List String) :
    (bindPlace context state place point mutable copy fresh span notes).1.Accounted := by
  simp only [State.bindPlace]
  apply with_ownership
  split
  · exact accounted.report (by simp [Violation.kind]) _ _ _ _ _
  · exact accounted

theorem assignPlace (accounted : state.Accounted) (place : PlaceId) (point : Point)
    (span : Span) : (assignPlace context state place point span).1.Accounted := by
  simp only [State.assignPlace]
  apply with_ownership
  split
  · exact accounted.report (by simp [Violation.kind]) _ _ _ _ _
  · exact accounted

theorem overwrite (accounted : state.Accounted) (place : PlaceId) (point : Point) (span : Span) :
    (overwrite context state place point span).Accounted := by
  unfold State.overwrite
  apply retireHeldBy
  split
  · exact accounted
  · exact accounted.report (by simp [Violation.kind]) _ _ _ _ _

theorem writeThroughBorrow (accounted : state.Accounted) (holder : PlaceId) (point : Point)
    (span : Span) (borrow : Borrow) :
    (writeThroughBorrow context state holder point span borrow).Accounted := by
  simp only [State.writeThroughBorrow]
  split
  · exact accounted.report (by simp [Violation.kind]) _ _ _ _ _
  · split
    · exact accounted
    · exact accounted.report (by simp [Violation.kind]) _ _ _ _ _

theorem foldl {Alpha : Type} {step : State → Alpha → State}
    (keeps : ∀ {state}, state.Accounted → ∀ value, (step state value).Accounted)
    (accounted : state.Accounted) (values : List Alpha) :
    (values.foldl step state).Accounted := by
  induction values generalizing state with
  | nil => exact accounted
  | cons value rest inductionHypothesis => exact inductionHypothesis (keeps accounted value)

theorem writeOwned (accounted : state.Accounted) (place : PlaceId) (point : Point)
    (span : Span) : (writeOwned context state place point span).Accounted := by
  unfold State.writeOwned
  extract_lets name isReference judged
  have checked : judged.Accounted := by
    unfold judged
    split
    · exact accounted.report (by simp [Violation.kind]) _ _ _ _ _
    · exact accounted
  clear_value judged
  split
  · have kind : (if isReference then Violation.writtenThroughWhileBorrowed name
        else .writtenWhileBorrowed name).kind ≠ .danglingReference := by
      split <;> simp [Violation.kind]
    exact checked.report kind _ _ _ _ _
  · split
    · exact checked.foldl
        (fun accounted borrow => accounted.writeThroughBorrow context place point span borrow) _
    · exact checked

/-- A new borrow has a number of its own, of which nothing was told yet. -/
theorem lend (accounted : state.Accounted) (referent : PlaceId) (kind : BorrowKind)
    (holder : PlaceId) (point : Point) (span : Span) :
    (lend context state referent kind holder point span).Accounted := by
  unfold State.lend
  split
  · cases kind with
    | shared => exact accounted.report (by simp [Violation.kind]) _ _ _ _ _
    | exclusive => exact accounted.report (by simp [Violation.kind]) _ _ _ _ _
  · next admitted =>
      have entered := accounted.consistent.lend_of_conflict?_eq_none context.tree holder point span
        admitted
      refine ⟨accounted.consistent.lend context.tree holder point span admitted, ?_, ?_, ?_,
        accounted.escapes⟩
      · simp only [entered, List.mem_append, List.mem_singleton]
        rintro borrow (old | rfl)
        · exact accounted.once borrow old
        · exact accounted.unheard _ (Nat.le_refl _)
      · simp only [entered, List.length_append, List.length_singleton]
        intro id outside
        exact accounted.unheard id (Nat.le_of_succ_le outside)
      · simp only [entered, List.mem_append, List.mem_singleton]
        rintro borrow (old | rfl) dangling
        · exact accounted.idle borrow old dangling
        · cases dangling

/-- A borrow that has not been told of is marked, ended and told of. -/
theorem of_marked {borrow : Borrow} {change : Borrow → Borrow} (accounted : state.Accounted)
    (listed : borrow ∈ state.ledger.borrows) (safe : borrow.dangling = false)
    (consistent : next.ledger.Consistent)
    (borrows : next.ledger.borrows = state.ledger.borrows.map change)
    (marked : (change borrow).dangling = true ∧ (change borrow).isActive = false ∧
      (change borrow).id = borrow.id)
    (others : ∀ other, other.id ≠ borrow.id → change other = other)
    (counts : ∀ id, next.blameCount id = state.blameCount id + if borrow.id = id then 1 else 0)
    (tells : next.TellsDangling) : next.Accounted := by
  have unchanged : ∀ other ∈ state.ledger.borrows, other ≠ borrow → other.id ≠ borrow.id := by
    intro other alsoListed different same
    exact different (accounted.consistent.eq_of_id listed alsoListed same)
  refine ⟨consistent, ?_, ?_, ?_, fun _ => tells⟩
  · rw [borrows]
    intro _ membership
    obtain ⟨other, alsoListed, rfl⟩ := List.mem_map.mp membership
    by_cases same : other = borrow
    · subst same
      rw [counts, marked.2.2, accounted.once other listed, safe, marked.1]
      simp
    · have different := unchanged other alsoListed same
      rw [others other different, counts, if_neg (Ne.symm different)]
      exact accounted.once other alsoListed
  · rw [borrows, List.length_map]
    intro id outside
    have inside := (List.getElem?_eq_some_iff.mp (accounted.consistent.getElem?_of_mem listed)).1
    rw [counts, if_neg (Nat.ne_of_lt (Nat.lt_of_lt_of_le inside outside))]
    exact accounted.unheard id outside
  · rw [borrows]
    intro _ membership dangling
    obtain ⟨other, alsoListed, rfl⟩ := List.mem_map.mp membership
    by_cases same : other = borrow
    · rw [same]
      exact marked.2.1
    · rw [others other (unchanged other alsoListed same)] at dangling ⊢
      exact accounted.idle other alsoListed dangling

theorem reportOutliving (accounted : state.Accounted) (place : PlaceId) (point : Point)
    (span : Span) {borrow : Borrow} (listed : borrow ∈ state.ledger.borrows)
    (active : borrow.isActive = true) :
    (reportOutliving context state place point span borrow).Accounted := by
  have safe : borrow.dangling = false := by
    by_contra dangling
    rw [accounted.idle borrow listed (Bool.not_eq_false _ |>.mp dangling)] at active
    cases active
  have becomes := reportOutliving_becomes context state place point span borrow
  apply accounted.of_marked listed safe (becomes.consistent accounted.consistent)
    (becomes.borrows accounted.consistent)
  · refine ⟨?_, ?_, ?_⟩
    · rw [Function.comp_apply, Borrow.endedIf_dangling]
      simp [Borrow.markedIf]
    · simp [Borrow.isActive_endedIf]
    · simp
  · intro other different
    simp [Borrow.endedIf, Borrow.markedIf, different, Ne.symm different]
  · intro id
    have counted := blameCount_report state
      (.outlivedReferent (context.tree.name place) (context.tree.name borrow.holder)) point
      (context.tree.name borrow.holder) (some borrow.id) span
    simp only [Option.some.injEq] at counted
    exact counted _ rfl id
  · exact ⟨_, List.mem_append_right _ (List.mem_singleton_self _), rfl⟩

theorem foldl_reportOutliving (place : PlaceId) (point : Point) (span : Span)
    {borrows : List Borrow} (accounted : state.Accounted)
    (listed : ∀ borrow ∈ borrows, borrow ∈ state.ledger.borrows ∧ borrow.isActive = true)
    (distinct : borrows.Pairwise fun borrow other => borrow.id ≠ other.id) :
    (borrows.foldl
      (fun state borrow => State.reportOutliving context state place point span borrow)
      state).Accounted := by
  induction borrows generalizing state with
  | nil => exact accounted
  | cons first rest inductionHypothesis =>
      obtain ⟨membership, active⟩ := listed first List.mem_cons_self
      obtain ⟨different, distinct⟩ := List.pairwise_cons.mp distinct
      rw [List.foldl_cons]
      apply inductionHypothesis (accounted.reportOutliving context place point span membership
        active) _ distinct
      intro borrow later
      obtain ⟨alsoListed, alsoActive⟩ := listed borrow (List.mem_cons_of_mem first later)
      refine ⟨?_, alsoActive⟩
      -- The others stay as they are when one of the borrows is told of.
      rw [(reportOutliving_becomes context state place point span first).borrows
        accounted.consistent]
      refine List.mem_map.mpr ⟨borrow, alsoListed, ?_⟩
      have other := different borrow later
      simp [Borrow.endedIf, Borrow.markedIf, other, Ne.symm other]

theorem checkDrop (accounted : state.Accounted) (place : PlaceId) (point : Point) (span : Span) :
    (checkDrop context state place point span).Accounted := by
  apply foldl_reportOutliving context place point span accounted
  · intro borrow membership
    obtain ⟨listed, active, _⟩ := accounted.consistent.mem_activeOn.mp membership
    exact ⟨listed, active⟩
  · rw [accounted.consistent.activeOn_eq]
    apply (accounted.consistent.pairwise_ids.filter _).imp
    intro borrow other lower
    exact Nat.ne_of_lt lower

theorem dropPlace (accounted : state.Accounted) (place : PlaceId) (point : Point) (span : Span) :
    (dropPlace context state place point span).Accounted :=
  ((accounted.retireHeldBy place point).checkDrop context place point span).with_ownership _

/-- Something that has escaped is told of without a borrow. -/
theorem report_unblamed {violation : Violation} (accounted : state.Accounted)
    (kind : violation.kind = .danglingReference) (point : Point) (place : Name) (span : Span)
    (notes : List String) : (state.report violation point place none span notes).Accounted := by
  have counted : ∀ id, (state.report violation point place none span notes).blameCount id =
      state.blameCount id :=
    fun id => blameCount_report state violation point place none span notes kind id
  refine ⟨accounted.consistent, ?_, ?_, accounted.idle, ?_⟩
  · intro borrow listed
    rw [counted]
    exact accounted.once borrow listed
  · intro id outside
    rw [counted]
    exact accounted.unheard id outside
  · intro _
    exact report_tellsDangling state kind point place none span notes

/-- A borrow that has ended is marked, and told of. -/
theorem report_blamed {violation : Violation} {borrow : Borrow} (accounted : state.Accounted)
    (listed : borrow ∈ state.ledger.borrows) (safe : borrow.dangling = false)
    (ended : borrow.isActive = false) (kind : violation.kind = .danglingReference)
    (point : Point) (place : Name) (span : Span) (notes : List String) :
    (State.report { state with ledger := state.ledger.markDangling borrow.id } violation point
      place (some borrow.id) span notes).Accounted := by
  apply accounted.of_marked listed safe (accounted.consistent.markDangling borrow.id)
    (accounted.consistent.markDangling_borrows borrow.id)
  · refine ⟨by simp [Borrow.markedIf], ?_, Borrow.markedIf_id _ _⟩
    rw [Borrow.isActive_markedIf]
    exact ended
  · intro other different
    simp [Borrow.markedIf, Ne.symm different]
  · intro id
    have counted := blameCount_report { state with
      ledger := state.ledger.markDangling borrow.id } violation point place (some borrow.id) span
      notes kind id
    simp only [Option.some.injEq] at counted
    exact counted
  · exact report_tellsDangling _ kind point place _ span notes

theorem tellsDangling_of_dangling (accounted : state.Accounted) {borrow : Borrow}
    (listed : borrow ∈ state.ledger.borrows) (dangling : borrow.dangling = true) :
    state.TellsDangling := by
  have once := accounted.once borrow listed
  rw [dangling, if_pos rfl] at once
  have counted : 0 < state.blameCount borrow.id := by
    rw [once]
    exact Nat.zero_lt_one
  obtain ⟨diagnostic, found, blames⟩ := List.countP_pos_iff.mp counted
  exact ⟨diagnostic, found, beq_iff_eq.mp (Bool.and_eq_true_iff.mp blames).1⟩

theorem with_escape (accounted : state.Accounted) (tells : state.TellsDangling)
    (holder : PlaceId) : Accounted { state with escapes := holder :: state.escapes } :=
  ⟨accounted.consistent, accounted.once, accounted.unheard, accounted.idle, fun _ => tells⟩

/-- A reference that has escaped keeps no active borrow, so marking its last one ends nothing. -/
theorem escapedUse (accounted : state.Accounted) {holder : PlaceId} (point : Point) (span : Span)
    (idle : ∀ borrow ∈ state.ledger.borrows, borrow.holder = holder → borrow.isActive = false) :
    (escapedUse context state holder point span).Accounted ∧
      (escapedUse context state holder point span).TellsDangling := by
  unfold State.escapedUse
  split
  · next known =>
      refine ⟨accounted, accounted.escapes ?_⟩
      intro nothing
      rw [nothing] at known
      cases known
  · extract_lets noted history tree name shown ended note
    split
    · next dangles =>
        obtain ⟨borrow, membership, dangling⟩ := List.any_eq_true.mp dangles
        have tells := accounted.tellsDangling_of_dangling (List.mem_filter.mp membership).1
          dangling
        exact ⟨accounted.with_escape tells holder, tells⟩
    · next safe =>
        split
        · have tells := report_tellsDangling noted (rfl : (Violation.usedAfterScope name).kind = _)
            point name none span [note]
          exact ⟨(accounted.report_unblamed rfl point name span [note]).with_escape tells holder,
            tells⟩
        · next last found =>
            have membership := List.mem_of_getLast? found
            obtain ⟨listed, isHolder⟩ := List.mem_filter.mp membership
            have unmarked : last.dangling = false := by
              by_contra dangling
              exact safe (List.any_eq_true.mpr ⟨last, membership, Bool.not_eq_false _ |>.mp dangling⟩)
            have tells := report_tellsDangling { noted with
              ledger := noted.ledger.markDangling last.id }
              (rfl : (Violation.usedAfterScope name).kind = _) point name (some last.id) span
              (Ledger.notes tree last ++ [note])
            refine ⟨?_, tells⟩
            exact (accounted.report_blamed listed unmarked (idle last listed
              (beq_iff_eq.mp isHolder)) rfl point name span _).with_escape tells holder

theorem declareFresh (accounted : state.Accounted) (place : PlaceId) (shadowed : Option PlaceId)
    (point : Point) (span : Span) :
    (declareFresh context state place shadowed point span).Accounted := by
  unfold State.declareFresh
  apply with_ownership
  split
  · exact accounted.dropPlace context _ point span
  · exact accounted

theorem assignTarget (accounted : state.Accounted) (target : Target) (point : Point)
    (span : Span) : (assignTarget context state target point span).Accounted := by
  cases target with
  | existing place =>
      exact (accounted.overwrite context place point span).assignPlace context place point span
  | fresh place shadowed rebinds =>
      exact (accounted.declareFresh context place shadowed point span).with_ownership _

theorem rebindTarget (accounted : state.Accounted) (target : Target) (mutable copy : Flag)
    (point : Point) (span : Span) :
    (rebindTarget context state target mutable copy point span).Accounted := by
  unfold State.rebindTarget
  cases target with
  | existing place =>
      simp only
      split
      · exact (accounted.retireHeldBy place point).bindPlace context _ point mutable copy _ span _
      · exact accounted.bindPlace context _ point mutable copy _ span _
  | fresh place shadowed rebinds =>
      simp only
      apply bindPlace
      apply declareFresh
      split
      · split
        · exact accounted.report (by simp [Violation.kind]) _ _ _ _ _
        · exact accounted
      · exact accounted

theorem passOn (accounted : state.Accounted) (source dest : PlaceId) (moves : Bool) :
    (if moves then State.transfer context state source dest else state).Accounted := by
  split
  · exact accounted.transfer context source dest
  · exact accounted

theorem exitScope (accounted : state.Accounted) (scope : ScopeId) (point : Point) (span : Span) :
    (exitScope context state scope point span).Accounted := by
  unfold State.exitScope
  apply foldl
  · intro state accounted place
    exact accounted.dropPlace context place point span
  · apply foldl _ accounted
    intro state accounted place
    exact accounted.retireHeldBy place point

variable {resolution : Resolution}

theorem step_of_inside {use : Use} (accounted : state.Accounted)
    (source : resolution.effect.source? = some use) (inside : use.escaped = false) :
    (state.step context resolution).Accounted := by
  obtain ⟨point, scope, span, effect⟩ := resolution
  have taken := takeSource_of_inside context state point span inside
  cases effect with
  | enter | exit | declare => cases source
  | bind target operand mutable copy =>
      cases source
      simp only [step, bind_some, taken]
      exact ((accounted.consumeSource context use.place point span "move").rebindTarget context
        target mutable copy point span).passOn context _ _ _
  | move target operand =>
      cases source
      simp only [step, move_eq, taken]
      exact ((accounted.consumeSource context use.place point span "move").assignTarget context
        target point span).passOn context _ _ _
  | borrow kind target operand =>
      cases source
      simp only [step, borrow_eq, readyToLend, liveUse, inside, Bool.false_eq_true, if_false]
      exact ((accounted.checkReferent context kind use.place point span).assignTarget context
        target point span).lend context _ kind _ point span
  | write operand =>
      cases source
      simp only [step, write, liveUse, inside, Bool.false_eq_true, if_false, if_true]
      have required := accounted.requireOwned context use.place point "write to" span
      split
      · exact required.writeOwned context use.place point span
      · exact required
  | read operand =>
      cases source
      simp only [step, read, liveUse, inside, Bool.false_eq_true, if_false, if_true]
      exact accounted.requireOwned context use.place point "read" span
  | consume operand =>
      cases source
      simp only [step, consume, liveUse, inside, Bool.false_eq_true, if_false, if_true]
      exact (accounted.consumeSource context use.place point span "consume").retireHeldBy _ _

theorem step_of_escaped {use : Use} (source : resolution.effect.source? = some use)
    (escaped : use.escaped = true)
    (noted : (State.escapedUse context state use.place resolution.point
      resolution.loc).Accounted) : (state.step context resolution).Accounted := by
  obtain ⟨point, scope, span, effect⟩ := resolution
  have taken := takeSource_of_escaped context state point span escaped
  cases effect with
  | enter | exit | declare => cases source
  | bind target operand mutable copy =>
      cases source
      simp only [step, bind_some, taken]
      exact (noted.rebindTarget context target mutable copy point span).passOn context _ _ _
  | move target operand =>
      cases source
      simp only [step, move_eq, taken]
      exact (noted.assignTarget context target point span).passOn context _ _ _
  | borrow kind target operand =>
      cases source
      simp only [step, borrow_eq, readyToLend, liveUse, escaped, if_true]
      exact noted.assignTarget context target point span
  | write operand =>
      cases source
      simp only [step, write, liveUse, escaped, if_true, Bool.false_eq_true, if_false]
      exact noted
  | read operand =>
      cases source
      simp only [step, read, liveUse, escaped, if_true, Bool.false_eq_true, if_false]
      exact noted
  | consume operand =>
      cases source
      simp only [step, consume, liveUse, escaped, if_true, Bool.false_eq_true, if_false]
      exact noted

theorem step_of_sourceless (accounted : state.Accounted)
    (sourceless : resolution.effect.source? = none) :
    (state.step context resolution).Accounted := by
  obtain ⟨point, scope, span, effect⟩ := resolution
  cases effect with
  | enter => exact accounted
  | exit closes => exact accounted.exitScope context closes point span
  | declare target => exact accounted.declareFresh context _ _ point span
  | bind target operand mutable copy =>
      cases sourceless
      exact accounted.rebindTarget context target mutable copy point span
  | move | borrow | write | read | consume => cases sourceless

/-- A statement keeps the account, if an operand that has escaped keeps no active borrow. -/
theorem advance (accounted : state.Accounted)
    (idle : ∀ use, resolution.effect.source? = some use → use.escaped = true →
      ∀ borrow ∈ state.ledger.borrows, borrow.holder = use.place → borrow.isActive = false) :
    (context.advance state resolution).Accounted := by
  apply retireDead
  cases source : resolution.effect.source? with
  | none => exact accounted.step_of_sourceless context source
  | some use =>
      cases escaped : use.escaped with
      | false => exact accounted.step_of_inside context source escaped
      | true =>
          apply step_of_escaped context source escaped
          exact (accounted.escapedUse context _ _ (idle use source escaped)).1

end Accounted

end State

namespace CodeUnit

variable {unit : CodeUnit} {tree : ScopeTree}

/-- What a reference held when its scope ended has ended too. -/
theorem Passage.idle_of_escaped {point : Point} {statement : Statement} {before after : Builder}
    {resolution : Resolution} {rest : List Resolution} {state : State}
    (passage : Passage unit tree point statement before resolution after rest)
    (sound : State.Sound tree point before state) {use : Use}
    (source : resolution.effect.source? = some use) (escaped : use.escaped = true) :
    ∀ borrow ∈ state.ledger.borrows, borrow.holder = use.place → borrow.isActive = false := by
  intro borrow membership holds
  have gone := (passage.escaped_source source escaped).2
  by_contra stillActive
  rw [Bool.not_eq_false] at stillActive
  have live := (sound.borrows borrow membership).holder_live stillActive
  rw [holds] at live
  exact gone live

variable (built : unit.scopeTree = .ok tree) (config : Config)

include built

theorem accounted_builderAt {point : Point} {builder : Builder}
    (inside : point ≤ unit.statements.length) (reached : unit.builderAt point = .ok builder) :
    ((Context.ofTree config tree).stateBefore point).Accounted := by
  -- Soundness goes along: it is what makes an escaped reference idle.
  have both := walk_induction built config
    (fun point builder state => State.Sound tree point builder state ∧ state.Accounted)
    ⟨State.sound_empty tree, State.accounted_empty⟩ ?_ inside reached
  · exact both.2
  · rintro point statement before resolution after rest state passage ⟨sound, accounted⟩
    have crossing : Builder.Crossing (Context.ofTree config tree).tree point before resolution
        after rest := passage.crossing
    refine ⟨State.Sound.advance crossing sound, ?_⟩
    apply accounted.advance
    intro use source escaped
    exact passage.idle_of_escaped sound source escaped

theorem accounted_run : (Context.ofTree config tree).run.Accounted := by
  obtain ⟨builder, _, reached, _⟩ := leads_builderAt built (Nat.le_refl _)
  have before := accounted_builderAt built config (Nat.le_refl _) reached
  rw [← length_of_scopeTree built] at before
  rw [Context.run_eq]
  exact before.exitScope _ _ _ _

/-- Once an escaped reference was used, something has been reported as dangling. -/
theorem tellsDangling_after_escape {point : Point} {resolution : Resolution} {use : Use}
    (listed : tree.resolved[point]? = some resolution)
    (source : resolution.effect.source? = some use) (escaped : use.escaped = true) :
    ((Context.ofTree config tree).stateBefore (point + 1)).TellsDangling := by
  obtain ⟨statement, before, after, rest, passage⟩ := passage_at built listed
  have bound := Nat.le_of_lt (List.getElem?_eq_some_iff.mp passage.listed).1
  have sound := sound_builderAt built config bound passage.reached
  have accounted := accounted_builderAt built config bound passage.reached
  have idle := passage.idle_of_escaped sound source escaped
  have told := (accounted.escapedUse (Context.ofTree config tree) resolution.point resolution.loc
    idle).2
  have steps := State.step_reports_of_escaped (Context.ofTree config tree)
    ((Context.ofTree config tree).stateBefore point) source escaped
  rw [Context.stateBefore_succ listed]
  exact (steps.trans (.of_eq (State.retireDead_diagnostics _ _ _))).tellsDangling told

theorem dangling_reported_by {point : Point} {resolution : Resolution} {use : Use}
    (listed : tree.resolved[point]? = some resolution)
    (source : resolution.effect.source? = some use) (escaped : use.escaped = true) :
    ∃ diagnostic ∈ (Context.ofTree config tree).run.diagnostics,
      diagnostic.kind = .danglingReference ∧ diagnostic.point ≤ point := by
  have leads : Builder.Leads (Context.ofTree config tree).tree 0 {} tree.resolved :=
    (Builder.leads_of_scopeTree built).2
  have inside := Nat.succ_le_of_lt (List.getElem?_eq_some_iff.mp listed).1
  obtain ⟨diagnostic, membership, kind⟩ :=
    tellsDangling_after_escape built config listed source escaped
  obtain ⟨early, same, fits⟩ := Context.reports_between leads (Nat.zero_le (point + 1)) inside
  obtain ⟨late, whole, _⟩ := Context.reports_run leads inside
  refine ⟨diagnostic, ?_, kind, ?_⟩
  · rw [whole]
    exact List.mem_append_left late membership
  · rw [same] at membership
    exact Int.le_of_lt_add_one (fits diagnostic membership).2

/-- A unit in whose run something is reported is not accepted, whatever limit is set. -/
theorem analyse_not_accepted (reported : (Context.ofTree config tree).run.diagnostics ≠ [])
    (recordStates : Bool) :
    ∃ result, unit.analyse config recordStates = .ok result ∧ result.accepted = false := by
  unfold analyse check Config.admits
  rw [built]
  have found : (Context.ofTree config tree).run.diagnostics.isEmpty = false := by
    rw [List.isEmpty_eq_false_iff]
    exact reported
  split
  · exact ⟨_, rfl, found⟩
  · split
    · exact ⟨_, rfl, rfl⟩
    · exact ⟨_, rfl, found⟩

end CodeUnit

/-- In a finished analysis a borrow dangles exactly if one report says so, no report says so
of another borrow, and an escaped use is preceded by a report, or makes one. -/
theorem dangling_reported_once {unit : CodeUnit} {tree : ScopeTree}
    (built : unit.scopeTree = .ok tree) (config : Config) :
    let final := (Context.ofTree config tree).run
    (∀ borrow ∈ final.ledger.borrows,
      (borrow.dangling = true ↔ final.diagnostics.countP (Diagnostic.blames borrow.id) = 1) ∧
      (borrow.dangling = false → ∀ diagnostic ∈ final.diagnostics,
        diagnostic.kind = .danglingReference → diagnostic.borrow ≠ some borrow.id)) ∧
    ∀ (point : Point) (resolution : Resolution) (use : Use),
      tree.resolved[point]? = some resolution →
      resolution.effect.source? = some use → use.escaped = true →
      (∃ diagnostic ∈ final.diagnostics,
        diagnostic.kind = .danglingReference ∧ diagnostic.point ≤ point) ∧
      ∀ recordStates, ∃ result, unit.analyse config recordStates = .ok result ∧
        result.accepted = false := by
  intro final
  have accounted : final.Accounted := CodeUnit.accounted_run built config
  refine ⟨?_, ?_⟩
  · intro borrow membership
    have count := accounted.once borrow membership
    unfold State.blameCount at count
    refine ⟨?_, ?_⟩
    · rw [count]
      cases borrow.dangling <;> decide
    · intro safe diagnostic listed kind named
      rw [safe] at count
      apply List.countP_eq_zero.mp count diagnostic listed
      rw [Diagnostic.blames, kind, named]
      simp
  · intro point resolution use listed source escaped
    have told := CodeUnit.dangling_reported_by built config listed source escaped
    refine ⟨told, ?_⟩
    obtain ⟨diagnostic, membership, _⟩ := told
    exact CodeUnit.analyse_not_accepted built config (List.ne_nil_of_mem membership)

/-- One reference is left over when its referent is dropped, one is used twice after its scope
and one is never used. -/
def strayReferences : CodeUnit := .ofActions "strayReferences" [
  .declare (.str "kept") (.bool false) (.bool false),
  .enter,
  .bind (.str "x") (.bool true) none (.bool false) (.bool false),
  .borrow .shared (.str "kept") (.str "x"),
  .borrow .shared (.str "lost") (.str "x"),
  .borrow .shared (.str "idle") (.str "x"),
  .exit,
  .read (.str "lost"),
  .read (.str "lost")]

theorem strayReferences_reported :
    ∃ tree, strayReferences.scopeTree = .ok tree ∧
      (Context.ofTree {} tree).run.diagnostics.countP (Diagnostic.blames 1) = 1 ∧
      (∀ diagnostic ∈ (Context.ofTree {} tree).run.diagnostics,
        diagnostic.kind = .danglingReference → diagnostic.borrow ≠ some 2) ∧
      (∃ diagnostic ∈ (Context.ofTree {} tree).run.diagnostics,
        diagnostic.kind = .danglingReference ∧ diagnostic.point ≤ 8) ∧
      ∀ recordStates, ∃ result, strayReferences.analyse {} recordStates = .ok result ∧
        result.accepted = false := by
  have known : (strayReferences.scopeTree.toOption.map fun tree =>
      ((Context.ofTree {} tree).run.ledger.borrows.map fun borrow => (borrow.id, borrow.dangling),
        (tree.resolved[8]?).map fun resolution => resolution.effect.source?)) =
      some ([(0, true), (1, true), (2, false)], some (some ⟨2, true⟩)) := by
    decide
  obtain ⟨tree, found, facts⟩ := Option.map_eq_some_iff.mp known
  have built := toOption_eq_some_iff.mp found
  simp only [Prod.mk.injEq] at facts
  obtain ⟨borrows, last⟩ := facts
  obtain ⟨resolution, listed, source⟩ := Option.map_eq_some_iff.mp last
  obtain ⟨once, escapes⟩ := dangling_reported_once built {}
  have member : ∀ entry ∈ [(0, true), (1, true), (2, false)],
      ∃ borrow ∈ (Context.ofTree {} tree).run.ledger.borrows,
        (borrow.id, borrow.dangling) = entry := by
    intro entry membership
    rw [← borrows] at membership
    exact List.mem_map.mp membership
  obtain ⟨lost, lostListed, isLost⟩ := member (1, true) (by decide)
  obtain ⟨idle, idleListed, isIdle⟩ := member (2, false) (by decide)
  simp only [Prod.mk.injEq] at isLost isIdle
  refine ⟨tree, built, ?_, ?_, escapes 8 resolution _ listed source rfl⟩
  · have count := (once lost lostListed).1.mp isLost.2
    rw [isLost.1] at count
    exact count
  · have others := (once idle idleListed).2 isIdle.2
    rw [isIdle.1] at others
    exact others

end LoanCheck
