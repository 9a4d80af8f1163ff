import LoanCheck.Proofs.Check.Invariant
import LoanCheck.Proofs.Scope.Lookup

/-!
# What a statement can report

Every rule reports a few kinds of violations only, at the point and the location of the
statement it is applied for.  So the reports of a whole run can be told apart by their
points, and those of a statement are exactly the ones it adds.
-/

namespace LoanCheck

/-- A diagnostic of one of some kinds, anchored at a statement. -/
def Diagnostic.Anchored (point : Point) (span : Span) (kinds : List DiagnosticKind)
    (diagnostic : Diagnostic) : Prop :=
  diagnostic.point = point ∧ diagnostic.span = span ∧ diagnostic.kind ∈ kinds

/-- A diagnostic without its notes. -/
def Diagnostic.bare (diagnostic : Diagnostic) : Diagnostic := { diagnostic with notes := [] }

/-- Whether a diagnostic is about the statement at a point. -/
def Diagnostic.isAt (point : Point) (diagnostic : Diagnostic) : Bool :=
  diagnostic.point == point

namespace DiagnosticKind

/-- The kinds that tell of a value that is not there. -/
def ofOwnership : List DiagnosticKind := [.useAfterMove, .useOfUninitialized]

def further : List DiagnosticKind :=
  [.duplicateBinding, .moveWhileBorrowed, .conflictingBorrow, .danglingReference,
    .mutabilityViolation, .writeWhileBorrowed]

end DiagnosticKind

namespace State

/-- Between two states nothing was reported but diagnostics that fit a description. -/
def Reports (before : State) (described : Diagnostic → Prop) (after : State) : Prop :=
  ∃ added, after.diagnostics = before.diagnostics ++ added ∧
    ∀ diagnostic ∈ added, described diagnostic

namespace Reports

variable {first second third : State} {described other : Diagnostic → Prop}

theorem of_eq (same : second.diagnostics = first.diagnostics) :
    Reports first described second := by
  refine ⟨[], ?_, ?_⟩
  · rw [same, List.append_nil]
  · intro diagnostic absent
    exact absurd absent List.not_mem_nil

theorem refl (state : State) : Reports state described state := of_eq rfl

theorem trans (left : Reports first described second) (right : Reports second described third) :
    Reports first described third := by
  obtain ⟨early, earlySame, earlyFits⟩ := left
  obtain ⟨late, lateSame, lateFits⟩ := right
  refine ⟨early ++ late, ?_, ?_⟩
  · rw [lateSame, earlySame, List.append_assoc]
  · intro diagnostic membership
    rcases List.mem_append.mp membership with before | after
    · exact earlyFits diagnostic before
    · exact lateFits diagnostic after

theorem then_ownership (reports : Reports first described second) (ownership : Ownership) :
    Reports first described { second with ownership } :=
  reports

theorem then_ledger (reports : Reports first described second) (ledger : Ledger) :
    Reports first described { second with ledger } :=
  reports

theorem imp (reports : Reports first described second)
    (implies : ∀ diagnostic, described diagnostic → other diagnostic) :
    Reports first other second := by
  obtain ⟨added, same, fits⟩ := reports
  exact ⟨added, same, fun diagnostic membership => implies _ (fits diagnostic membership)⟩

theorem widen {point : Point} {span : Span} {kinds more : List DiagnosticKind}
    (reports : Reports first (Diagnostic.Anchored point span kinds) second)
    (contained : ∀ kind ∈ kinds, kind ∈ more) :
    Reports first (Diagnostic.Anchored point span more) second :=
  reports.imp fun _ ⟨at_point, at_span, known⟩ => ⟨at_point, at_span, contained _ known⟩

theorem foldl {Alpha : Type} {step : State → Alpha → State}
    (each : ∀ state value, Reports state described (step state value)) (values : List Alpha)
    (state : State) : Reports state described (values.foldl step state) := by
  induction values generalizing state with
  | nil => exact .refl state
  | cons value rest inductionHypothesis =>
      exact (each state value).trans (inductionHypothesis (step state value))

/-- Diagnostics that a test does not pick are added without changing what it picks. -/
theorem filter_eq {test : Diagnostic → Bool} (reports : Reports first described second)
    (unpicked : ∀ diagnostic, described diagnostic → test diagnostic = false) :
    second.diagnostics.filter test = first.diagnostics.filter test := by
  obtain ⟨added, same, fits⟩ := reports
  have nothing : added.filter test = [] := by
    rw [List.filter_eq_nil_iff]
    intro diagnostic membership
    rw [unpicked diagnostic (fits diagnostic membership)]
    exact Bool.false_ne_true
  rw [same, List.filter_append, nothing, List.append_nil]

end Reports

variable (context : Context) (state : State) (point : Point) (span : Span)

theorem report_reports {violation : Violation} {kinds : List DiagnosticKind}
    (known : violation.kind ∈ kinds) (place : Name) (borrow : Option BorrowId)
    (notes : List String) :
    Reports state (Diagnostic.Anchored point span kinds)
      (state.report violation point place borrow span notes) := by
  refine ⟨_, rfl, ?_⟩
  intro diagnostic membership
  cases List.mem_singleton.mp membership
  exact ⟨rfl, rfl, known⟩

theorem requireOwned_reports (place : PlaceId) (action : String) :
    Reports state (Diagnostic.Anchored point span DiagnosticKind.ofOwnership)
      (requireOwned context state place point action span).1 := by
  unfold requireOwned DiagnosticKind.ofOwnership
  split
  · exact report_reports state point span (by simp [Violation.kind]) _ _ _
  · exact report_reports state point span (by simp [Violation.kind]) _ _ _
  · exact .refl state
  · exact .refl state

theorem consumeSource_reports (place : PlaceId) (action : String) :
    Reports (requireOwned context state place point action span).1
      (Diagnostic.Anchored point span [.moveWhileBorrowed])
      (consumeSource context state place point span action) := by
  unfold consumeSource
  generalize requireOwned context state place point action span = answer
  obtain ⟨judged, owned⟩ := answer
  apply Reports.then_ownership
  split
  · split
    · exact .refl judged
    · exact report_reports judged point span (by simp [Violation.kind]) _ _ _
  · exact .refl judged

theorem checkReferent_reports (kind : BorrowKind) (place : PlaceId) :
    Reports (requireOwned context state place point "borrow" span).1
      (Diagnostic.Anchored point span [.mutabilityViolation])
      (checkReferent context state kind place point span) := by
  simp only [checkReferent]
  split
  · exact report_reports _ point span (by simp [Violation.kind]) _ _ _
  · exact .refl _

theorem bindPlace_reports (place : PlaceId) (mutable copy : Flag) (fresh : Bool)
    (notes : List String) :
    Reports state (Diagnostic.Anchored point span [.duplicateBinding])
      (bindPlace context state place point mutable copy fresh span notes).1 := by
  simp only [bindPlace]
  apply Reports.then_ownership
  split
  · exact report_reports state point span (by simp [Violation.kind]) _ _ _
  · exact .refl state

theorem assignPlace_reports (place : PlaceId) :
    Reports state (Diagnostic.Anchored point span [.mutabilityViolation])
      (assignPlace context state place point span).1 := by
  simp only [assignPlace]
  apply Reports.then_ownership
  split
  · exact report_reports state point span (by simp [Violation.kind]) _ _ _
  · exact .refl state

theorem lend_reports (referent : PlaceId) (kind : BorrowKind) (holder : PlaceId) :
    Reports state (Diagnostic.Anchored point span [.conflictingBorrow])
      (lend context state referent kind holder point span) := by
  unfold lend
  split
  · cases kind with
    | shared => exact report_reports state point span (by simp [Violation.kind]) _ _ _
    | exclusive => exact report_reports state point span (by simp [Violation.kind]) _ _ _
  · exact .of_eq rfl

theorem reportOutliving_reports (place : PlaceId) (borrow : Borrow) :
    Reports state (Diagnostic.Anchored point span [.danglingReference])
      (reportOutliving context state place point span borrow) :=
  (report_reports state point span (by simp [Violation.kind]) _ _ _).then_ledger _

theorem checkDrop_reports (place : PlaceId) :
    Reports state (Diagnostic.Anchored point span [.danglingReference])
      (checkDrop context state place point span) :=
  Reports.foldl (fun state borrow => reportOutliving_reports context state point span place borrow)
    _ state

theorem escapedUse_reports (holder : PlaceId) :
    Reports state (Diagnostic.Anchored point span [.danglingReference])
      (escapedUse context state holder point span) := by
  unfold escapedUse
  split
  · exact .refl state
  · extract_lets noted history tree name shown ended note
    have quietly : Reports state (Diagnostic.Anchored point span [.danglingReference]) noted :=
      .of_eq rfl
    split
    · exact quietly
    · apply quietly.trans
      split
      · exact report_reports noted point span (by simp [Violation.kind]) _ _ _
      · exact report_reports _ point span (by simp [Violation.kind]) _ _ _

theorem dropPlace_reports (place : PlaceId) :
    Reports state (Diagnostic.Anchored point span [.danglingReference])
      (dropPlace context state place point span) := by
  have ended : Reports state (Diagnostic.Anchored point span [.danglingReference])
      (state.retireHeldBy place point) := (Reports.refl state).then_ledger _
  exact (ended.trans (checkDrop_reports context _ point span place)).then_ownership _

theorem overwrite_reports (place : PlaceId) :
    Reports state (Diagnostic.Anchored point span [.writeWhileBorrowed])
      (overwrite context state place point span) := by
  unfold overwrite
  apply Reports.then_ledger
  split
  · exact .refl state
  · exact report_reports state point span (by simp [Violation.kind]) _ _ _

theorem declareFresh_reports (place : PlaceId) (shadowed : Option PlaceId) :
    Reports state (Diagnostic.Anchored point span [.danglingReference])
      (declareFresh context state place shadowed point span) := by
  unfold declareFresh
  apply Reports.then_ownership
  split
  · exact dropPlace_reports context state point span _
  · exact .refl state

theorem assignTarget_reports (target : Target) :
    Reports state
      (Diagnostic.Anchored point span
        [.danglingReference, .writeWhileBorrowed, .mutabilityViolation])
      (assignTarget context state target point span) := by
  cases target with
  | existing place =>
      have overwritten := overwrite_reports context state point span place
      have assigned := assignPlace_reports context
        (overwrite context state place point span) point span place
      exact (overwritten.widen (by decide)).trans (assigned.widen (by decide))
  | fresh place shadowed rebinds =>
      have declared := declareFresh_reports context state point span place shadowed
      exact (declared.widen (by decide)).then_ownership _

theorem rebindTarget_reports (target : Target) (mutable copy : Flag) :
    Reports state (Diagnostic.Anchored point span [.duplicateBinding, .danglingReference])
      (rebindTarget context state target mutable copy point span) := by
  unfold rebindTarget
  apply Reports.trans _ ((bindPlace_reports context _ point span _ mutable copy _ _).widen
    (by decide))
  cases target with
  | existing place =>
      simp only
      split
      · exact .of_eq rfl
      · exact .refl state
  | fresh place shadowed rebinds =>
      simp only
      apply Reports.trans _ ((declareFresh_reports context _ point span place shadowed).widen
        (by decide))
      split
      · split
        · exact report_reports state point span (by simp [Violation.kind]) _ _ _
        · exact .refl state
      · exact .refl state

theorem writeThroughBorrow_reports (holder : PlaceId) (borrow : Borrow) :
    Reports state (Diagnostic.Anchored point span [.mutabilityViolation, .conflictingBorrow])
      (writeThroughBorrow context state holder point span borrow) := by
  simp only [writeThroughBorrow]
  split
  · exact report_reports state point span (by simp [Violation.kind]) _ _ _
  · split
    · exact .refl state
    · exact report_reports state point span (by simp [Violation.kind]) _ _ _

/-- Writing to a place reports what it has to say of the place itself, or what writing through the
borrows it keeps reports. -/
theorem writeOwned_reports_of_through {place : PlaceId} {kinds : List DiagnosticKind}
    (known : ∀ kind ∈ [DiagnosticKind.mutabilityViolation, .writeWhileBorrowed], kind ∈ kinds)
    (through : ∀ judged : State, judged.ledger = state.ledger →
      Reports judged (Diagnostic.Anchored point span kinds)
        ((judged.ledger.heldBy place).foldl
          (fun state borrow => writeThroughBorrow context state place point span borrow)
          judged)) :
    Reports state (Diagnostic.Anchored point span kinds)
      (writeOwned context state place point span) := by
  unfold writeOwned
  extract_lets name isReference judged
  have mutability : Reports state (Diagnostic.Anchored point span kinds) judged := by
    unfold judged
    split
    · exact report_reports state point span (known .mutabilityViolation (by decide)) _ _ _
    · exact .refl state
  have sameLedger : judged.ledger = state.ledger := by
    unfold judged
    split <;> rfl
  clear_value judged
  apply mutability.trans
  split
  · have kind : (if isReference then Violation.writtenThroughWhileBorrowed name
        else .writtenWhileBorrowed name).kind = .writeWhileBorrowed := by
      split <;> rfl
    apply report_reports judged point span
    exact kind ▸ known .writeWhileBorrowed (by decide)
  · split
    · exact through judged sameLedger
    · exact .refl judged

theorem writeOwned_reports (place : PlaceId) :
    Reports state
      (Diagnostic.Anchored point span
        [.mutabilityViolation, .writeWhileBorrowed, .conflictingBorrow])
      (writeOwned context state place point span) := by
  apply writeOwned_reports_of_through context state point span (by decide)
  intro judged _
  apply Reports.foldl
  intro state borrow
  exact (writeThroughBorrow_reports context state point span place borrow).widen (by decide)

theorem exitScope_reports (scope : ScopeId) :
    Reports state (Diagnostic.Anchored point span [.danglingReference])
      (exitScope context state scope point span) := by
  unfold exitScope
  extract_lets live ended
  have quietly : Reports state (Diagnostic.Anchored point span [.danglingReference]) ended := by
    apply Reports.foldl
    intro state place
    exact .of_eq rfl
  exact quietly.trans
    (Reports.foldl (fun state place => dropPlace_reports context state point span place) _ ended)

theorem passOn_reports {described : Diagnostic → Prop} (source dest : PlaceId) (moves : Bool) :
    Reports state described (if moves then transfer context state source dest else state) := by
  split
  · exact (Reports.refl state).then_ledger _
  · exact .refl state

theorem takeSource_of_inside {source : Use} (inside : source.escaped = false) :
    (takeSource context state source point span).1 =
      consumeSource context state source.place point span "move" := by
  simp [takeSource, liveUse, inside]

theorem takeSource_of_escaped {source : Use} (escaped : source.escaped = true) :
    (takeSource context state source point span).1 =
      escapedUse context state source.place point span := by
  simp [takeSource, liveUse, escaped]

/-- An operand that has not escaped is required to have its value; what follows reports nothing
of that kind. -/
theorem step_reports_of_inside {resolution : Resolution} {use : Use}
    (source : resolution.effect.source? = some use) (inside : use.escaped = false) :
    ∃ action, Reports
      (requireOwned context state use.place resolution.point action resolution.loc).1
      (Diagnostic.Anchored resolution.point resolution.loc DiagnosticKind.further)
      (state.step context resolution) := by
  obtain ⟨point, scope, span, effect⟩ := resolution
  have consumed := fun action =>
    (consumeSource_reports context state point span use.place action).widen
      (by decide : ∀ kind ∈ _, kind ∈ DiagnosticKind.further)
  have taken := takeSource_of_inside context state point span inside
  cases effect with
  | enter | exit | declare => cases source
  | bind target operand mutable copy =>
      cases source
      refine ⟨"move", ?_⟩
      simp only [step, bind_some, taken]
      apply Reports.trans _ (passOn_reports context _ _ _ _)
      exact (consumed "move").trans
        ((rebindTarget_reports context _ point span target mutable copy).widen (by decide))
  | move target operand =>
      cases source
      refine ⟨"move", ?_⟩
      simp only [step, move_eq, taken]
      apply Reports.trans _ (passOn_reports context _ _ _ _)
      exact (consumed "move").trans
        ((assignTarget_reports context _ point span target).widen (by decide))
  | borrow kind target operand =>
      cases source
      refine ⟨"borrow", ?_⟩
      simp only [step, borrow_eq, readyToLend, liveUse, inside, Bool.false_eq_true, if_false]
      have checked := (checkReferent_reports context state point span kind use.place).widen
        (by decide : ∀ kind ∈ _, kind ∈ DiagnosticKind.further)
      have assigned := checked.trans ((assignTarget_reports context _ point span target).widen
        (by decide))
      exact assigned.trans ((lend_reports context _ point span use.place kind _).widen (by decide))
  | write operand =>
      cases source
      refine ⟨"write to", ?_⟩
      simp only [step, write, liveUse, inside, Bool.false_eq_true, if_false, if_true]
      split
      · exact (writeOwned_reports context _ point span use.place).widen (by decide)
      · exact .refl _
  | read operand =>
      cases source
      refine ⟨"read", ?_⟩
      simp only [step, read, liveUse, inside, Bool.false_eq_true, if_false, if_true]
      exact .refl _
  | consume operand =>
      cases source
      refine ⟨"consume", ?_⟩
      simp only [step, consume, liveUse, inside, Bool.false_eq_true, if_false, if_true]
      exact (consumed "consume").then_ledger _

/-- An operand that has escaped is told of first. -/
theorem step_reports_of_escaped {resolution : Resolution} {use : Use}
    (source : resolution.effect.source? = some use) (escaped : use.escaped = true) :
    Reports (escapedUse context state use.place resolution.point resolution.loc)
      (Diagnostic.Anchored resolution.point resolution.loc DiagnosticKind.further)
      (state.step context resolution) := by
  obtain ⟨point, scope, span, effect⟩ := resolution
  have taken := takeSource_of_escaped context state point span escaped
  cases effect with
  | enter | exit | declare => cases source
  | bind target operand mutable copy =>
      cases source
      simp only [step, bind_some, taken]
      apply Reports.trans _ (passOn_reports context _ _ _ _)
      exact (rebindTarget_reports context _ point span target mutable copy).widen (by decide)
  | move target operand =>
      cases source
      simp only [step, move_eq, taken]
      apply Reports.trans _ (passOn_reports context _ _ _ _)
      exact (assignTarget_reports context _ point span target).widen (by decide)
  | borrow kind target operand =>
      cases source
      simp only [step, borrow_eq, readyToLend, liveUse, escaped, if_true]
      exact (assignTarget_reports context _ point span target).widen (by decide)
  | write operand =>
      cases source
      simp only [step, write, liveUse, escaped, if_true, Bool.false_eq_true, if_false]
      exact .refl _
  | read operand =>
      cases source
      simp only [step, read, liveUse, escaped, if_true, Bool.false_eq_true, if_false]
      exact .refl _
  | consume operand =>
      cases source
      simp only [step, consume, liveUse, escaped, if_true, Bool.false_eq_true, if_false]
      exact .refl _

theorem step_reports_of_sourceless {resolution : Resolution}
    (sourceless : resolution.effect.source? = none) :
    Reports state (Diagnostic.Anchored resolution.point resolution.loc DiagnosticKind.further)
      (state.step context resolution) := by
  obtain ⟨point, scope, span, effect⟩ := resolution
  cases effect with
  | enter => exact .refl state
  | exit closes => exact (exitScope_reports context state point span closes).widen (by decide)
  | declare target => exact (declareFresh_reports context state point span _ _).widen (by decide)
  | bind target operand mutable copy =>
      cases sourceless
      exact (rebindTarget_reports context state point span target mutable copy).widen (by decide)
  | move | borrow | write | read | consume => cases sourceless

theorem retireDead_diagnostics (context : Context) (state : State) (point : Point) :
    (state.retireDead context point).diagnostics = state.diagnostics := by
  unfold retireDead
  split <;> rfl

/-- Whatever a statement reports is anchored at it. -/
theorem advance_reports (context : Context) (state : State) (resolution : Resolution) :
    Reports state (Diagnostic.Anchored resolution.point resolution.loc DiagnosticKind.all)
      (context.advance state resolution) := by
  apply Reports.trans _ (.of_eq (retireDead_diagnostics context _ resolution.point))
  cases source : resolution.effect.source? with
  | none => exact (step_reports_of_sourceless context state source).widen (by decide)
  | some use =>
      cases escaped : use.escaped with
      | true =>
          have used := escapedUse_reports context state resolution.point resolution.loc use.place
          exact (used.widen (by decide)).trans
            ((step_reports_of_escaped context state source escaped).widen (by decide))
      | false =>
          obtain ⟨action, reports⟩ := step_reports_of_inside context state source escaped
          have required := requireOwned_reports context state resolution.point resolution.loc
            use.place action
          exact (required.widen (by decide)).trans (reports.widen (by decide))

end State

namespace Context

/-- A run ends when the outermost scope does. -/
theorem run_eq (context : Context) :
    context.run = State.exitScope context (context.stateBefore context.tree.resolved.length)
      ScopeTree.rootId context.tree.unit.endPoint {} := by
  rw [stateBefore, List.take_length]
  rfl

variable {context : Context} (leads : Builder.Leads context.tree 0 {} context.tree.resolved)

include leads

/-- Statements report at their own points, one after the other. -/
theorem reports_between {start stop : Point} (early : start ≤ stop)
    (inside : stop ≤ context.tree.resolved.length) :
    State.Reports (context.stateBefore start)
      (fun diagnostic => start ≤ diagnostic.point ∧ diagnostic.point < stop)
      (context.stateBefore stop) := by
  induction early with
  | refl => exact .refl _
  | @step stop early inductionHypothesis =>
      have listed := List.getElem?_eq_getElem (Nat.lt_of_succ_le inside)
      obtain ⟨_, _, _, crossing, _⟩ := crossing_at leads listed
      have notLater : (start : Int) ≤ stop := Int.ofNat_le.mpr early
      rw [Nat.succ_eq_add_one, stateBefore_succ listed]
      apply State.Reports.trans
      · apply (inductionHypothesis (Nat.le_of_succ_le inside)).imp
        rintro diagnostic ⟨notBefore, before⟩
        exact ⟨notBefore, by omega⟩
      · apply (State.advance_reports context _ _).imp
        rintro diagnostic ⟨at_point, _, _⟩
        rw [crossing.at_point] at at_point
        omega

theorem reports_run {point : Point} (inside : point ≤ context.tree.resolved.length) :
    State.Reports (context.stateBefore point) (fun diagnostic => point ≤ diagnostic.point)
      context.run := by
  have length : context.tree.resolved.length = context.tree.unit.endPoint := by
    simpa using leads.end_eq
  have walked := reports_between leads inside (Nat.le_refl _)
  have exits := State.exitScope_reports context (context.stateBefore context.tree.resolved.length)
    context.tree.unit.endPoint {} ScopeTree.rootId
  rw [run_eq]
  apply State.Reports.trans
  · exact walked.imp fun _ ⟨notBefore, _⟩ => notBefore
  · apply exits.imp
    rintro diagnostic ⟨at_end, _, _⟩
    rw [at_end, ← length]
    exact Int.ofNat_le.mpr inside

/-- The reports at the point of a statement are those that the statement adds. -/
theorem filter_run_eq {point : Point} {resolution : Resolution}
    (listed : context.tree.resolved[point]? = some resolution) :
    (context.stateBefore (point + 1)).diagnostics =
      (context.stateBefore point).diagnostics ++
        context.run.diagnostics.filter (Diagnostic.isAt point) := by
  obtain ⟨_, _, _, crossing, _⟩ := crossing_at leads listed
  have inside := (List.getElem?_eq_some_iff.mp listed).1
  have before := reports_between leads (Nat.zero_le point) (Nat.le_of_lt inside)
  obtain ⟨added, advanced, fits⟩ := State.advance_reports context (context.stateBefore point)
    resolution
  have after := reports_run leads (Nat.succ_le_of_lt inside)
  rw [← stateBefore_succ listed] at advanced
  have none_before : (context.stateBefore point).diagnostics.filter (Diagnostic.isAt point) =
      [] := by
    apply before.filter_eq
    rintro diagnostic ⟨_, earlier⟩
    exact beq_eq_false_iff_ne.mpr (Int.ne_of_lt earlier)
  have all_added : added.filter (Diagnostic.isAt point) = added := by
    rw [List.filter_eq_self]
    intro diagnostic membership
    have at_point := (fits diagnostic membership).1
    rw [crossing.at_point] at at_point
    exact beq_iff_eq.mpr at_point
  have none_after : context.run.diagnostics.filter (Diagnostic.isAt point) =
      (context.stateBefore (point + 1)).diagnostics.filter (Diagnostic.isAt point) := by
    apply after.filter_eq
    intro diagnostic later
    exact beq_eq_false_iff_ne.mpr (Int.ne_of_gt (Int.lt_of_add_one_le later))
  rw [none_after, advanced, List.filter_append, none_before, all_added, List.nil_append]

end Context

namespace CodeUnit

variable {unit : CodeUnit} {tree : ScopeTree} (built : unit.scopeTree = .ok tree)
  (config : Config)

include built

/-- What holds at first and is kept by every statement holds before each statement, of the
builder and the state there. -/
theorem walk_induction (motive : Point → Builder → State → Prop) (start : motive 0 {} {})
    (keeps : ∀ {point statement before resolution after rest state},
      Passage unit tree point statement before resolution after rest →
        motive point before state →
        motive (point + 1) after ((Context.ofTree config tree).advance state resolution))
    {point : Point} {builder : Builder} (inside : point ≤ unit.statements.length)
    (reached : unit.builderAt point = .ok builder) :
    motive point builder ((Context.ofTree config tree).stateBefore point) := by
  induction point generalizing builder with
  | zero =>
      cases reached
      exact start
  | succ point inductionHypothesis =>
      have bound : point < tree.resolved.length := by
        rw [length_of_scopeTree built]
        exact inside
      have listed := List.getElem?_eq_getElem bound
      obtain ⟨statement, before, after, rest, passage⟩ := passage_at built listed
      have same := passage.reached_next.symm.trans reached
      cases same
      rw [Context.stateBefore_succ listed]
      exact keeps passage (inductionHypothesis (Nat.le_of_succ_le inside) passage.reached)

theorem sound_builderAt {point : Point} {builder : Builder}
    (inside : point ≤ unit.statements.length) (reached : unit.builderAt point = .ok builder) :
    State.Sound tree point builder ((Context.ofTree config tree).stateBefore point) := by
  apply walk_induction built config (State.Sound tree) (State.sound_empty tree) _ inside reached
  intro point statement before resolution after rest state passage sound
  have crossing : Builder.Crossing (Context.ofTree config tree).tree point before resolution after
      rest := passage.crossing
  exact State.Sound.advance crossing sound

end CodeUnit

end LoanCheck
