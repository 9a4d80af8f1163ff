import LoanCheck.Proofs.Check.Extents
import LoanCheck.Proofs.Check.Silence

/-!
# Borrowed places are frozen

In a unit that is accepted, no statement between the start and the end of a borrow writes
to the borrowed place, gives it a value, hides it, or takes its value unless that is
copied.  The argument looks at the state before the statement: the borrow is active there,
and a silent statement leaves what is borrowed alone.
-/

namespace LoanCheck

/-- A statement leaves a place alone; only a value that may be copied may be taken. -/
structure Effect.Spares (effect : Effect) (place : PlaceId) (copied : Bool) : Prop where
  not_written : ∀ source, effect = .write source → source.place ≠ place
  not_given : ∀ target, effect.target? = some target → target.place ≠ place
  not_shadowed : ∀ target, effect.target? = some target → target.shadowed? ≠ some place
  not_taken : ∀ source, effect.takes? = some source → source.place = place → copied = true

namespace State

/-- What a state still tells of one before it, at the given point. -/
structure Later (point : Point) (earlier later : State) : Prop where
  old : ∀ (index : Nat) (borrow : Borrow), earlier.ledger.borrows[index]? = some borrow →
    ∃ next, later.ledger.borrows[index]? = some next ∧ borrow.Continues next
  new : ∀ (index : Nat) (next : Borrow), later.ledger.borrows[index]? = some next →
    earlier.ledger.borrows.length ≤ index → point ≤ next.created
  reports : earlier.diagnostics <+: later.diagnostics

namespace Later

variable {first second third : State} {point next : Point}

theorem refl (point : Point) (state : State) : Later point state state where
  old _ borrow found := ⟨borrow, found, .refl borrow⟩
  new index borrow found outside := by
    rw [List.getElem?_eq_none outside] at found
    cases found
  reports := List.prefix_refl _

theorem weaken (later : Later next first second) (ordered : point ≤ next) :
    Later point first second :=
  { later with
    new := fun index borrow found outside =>
      Nat.le_trans ordered (later.new index borrow found outside) }

theorem trans (left : Later point first second) (right : Later point second third) :
    Later point first third where
  old index borrow found := by
    obtain ⟨middle, foundMiddle, continues⟩ := left.old index borrow found
    obtain ⟨last, foundLast, continuesLast⟩ := right.old index middle foundMiddle
    exact ⟨last, foundLast, continues.trans continuesLast⟩
  new index last found outside := by
    by_cases inside : index < second.ledger.borrows.length
    · have foundMiddle := List.getElem?_eq_getElem inside
      obtain ⟨same, foundSame, continues⟩ := right.old index _ foundMiddle
      rw [found, Option.some.injEq] at foundSame
      subst foundSame
      rw [continues.created]
      exact left.new index _ foundMiddle outside
    · exact right.new index last found (Nat.le_of_not_lt inside)
  reports := left.reports.trans right.reports

/-- A borrow that was taken before the point is known in the earlier state. -/
theorem present (later : Later point first second) {index : Nat} {borrow : Borrow}
    (found : second.ledger.borrows[index]? = some borrow) (started : borrow.created < point) :
    ∃ earlier, first.ledger.borrows[index]? = some earlier := by
  by_cases inside : index < first.ledger.borrows.length
  · exact ⟨_, List.getElem?_eq_getElem inside⟩
  · have created := later.new index borrow found (Nat.le_of_not_lt inside)
    exact absurd started (Nat.not_lt.mpr created)

theorem silent_before (later : Later point first second) (silent : second.diagnostics = []) :
    first.diagnostics = [] := by
  have reports := later.reports
  rw [silent] at reports
  exact List.prefix_nil.mp reports

theorem of_becomes {change : Borrow → Borrow} {owners : Ownership → Ownership}
    (becomes : Becomes first change owners second) (consistent : first.ledger.Consistent)
    (continues : ∀ borrow, Borrow.Continues borrow (change borrow)) : Later point first second where
  old index borrow found := by
    refine ⟨change borrow, ?_, continues borrow⟩
    rw [becomes.borrows consistent, List.getElem?_map, found]
    rfl
  new index next found outside := by
    rw [becomes.borrows consistent, List.getElem?_eq_none] at found
    · cases found
    · rw [List.length_map]
      exact outside
  reports := becomes.reports

/-- A borrow that meets no conflict is entered after those there are. -/
theorem of_lend {state : State} {tree : ScopeTree} {referent holder : PlaceId} {kind : BorrowKind}
    {origin : Span} (consistent : state.ledger.Consistent)
    (admitted : state.ledger.conflict? referent kind = none) :
    Later point state { state with
      ledger := state.ledger.lend tree referent kind holder point origin } := by
  have entered := consistent.lend_of_conflict?_eq_none tree holder point origin admitted
  refine ⟨?_, ?_, List.prefix_refl _⟩
  · intro index borrow found
    refine ⟨borrow, ?_, .refl borrow⟩
    simp only [entered]
    exact getElem?_concat_eq_some_iff.mpr (.inl found)
  · intro index borrow found outside
    simp only [entered] at found
    rcases getElem?_concat_eq_some_iff.mp found with old | ⟨_, rfl⟩
    · rw [List.getElem?_eq_none outside] at old
      cases old
    · exact Nat.le_refl _

end Later

section Steps

variable {context : Context} {state : State} {point : Point} {before after : Builder}
  {resolution : Resolution} {rest : List Resolution}

theorem later_step (context : Context) (consistent : state.ledger.Consistent)
    (resolution : Resolution) :
    Later resolution.point state (state.step context resolution) := by
  rcases step_cases context state resolution with
    becomes | ⟨kind, target, source, ready, lends, inside, becomes, admitted, stepped⟩
  · exact .of_becomes becomes consistent (Borrow.continues_settled _ _ _)
  · have settled : Later resolution.point state ready :=
      .of_becomes becomes consistent (Borrow.continues_settled _ _ _)
    rw [stepped]
    exact settled.trans (.of_lend (becomes.consistent consistent) admitted)

theorem Sound.later_retireDead
    (crossing : Builder.Crossing context.tree point before resolution after rest)
    (sound : Sound context.tree point before state) :
    Later point (state.step context resolution) (context.advance state resolution) := by
  rw [Context.advance, crossing.at_point]
  exact .of_becomes (retireDead_becomes context _ point) (sound.step crossing).consistent
    (Borrow.continues_endedIf _ _)

theorem Sound.later_advance
    (crossing : Builder.Crossing context.tree point before resolution after rest)
    (sound : Sound context.tree point before state) :
    Later point state (context.advance state resolution) := by
  have stepped := later_step context sound.consistent resolution
  rw [crossing.at_point] at stepped
  exact stepped.trans (sound.later_retireDead crossing)

end Steps

/-- As long as nothing is reported, what is borrowed has its value or was dropped. -/
def Backed (tree : ScopeTree) (state : State) : Prop :=
  state.diagnostics = [] → ∀ borrow ∈ state.ledger.borrows, borrow.isActive = true →
    state.ownership.stateOf tree borrow.referent = .owned ∨
      state.ownership.stateOf tree borrow.referent = .dropped

section Silent

variable {context : Context} {state : State} {point : Point} {before after : Builder}
  {resolution : Resolution} {rest : List Resolution} {borrow : Borrow}

/-- A silent statement takes a borrowed value only if that is copied and still there. -/
theorem Sound.copied_of_silent
    (crossing : Builder.Crossing context.tree point before resolution after rest)
    (sound : Sound context.tree point before state)
    (silent : (state.step context resolution).diagnostics = [])
    (membership : borrow ∈ state.ledger.borrows) (active : borrow.isActive = true) {source : Use}
    (takes : resolution.effect.takes? = some source) (same : source.place = borrow.referent) :
    (state.ownership.record context.tree borrow.referent).copy.isTrue = true ∧
      state.ownership.stateOf context.tree borrow.referent = .owned := by
  obtain ⟨inside, kept, unborrowed | copied⟩ := takes_of_silent sound.quiet takes silent
  · rw [same, sound.consistent.activeOn_eq_nil_iff] at unborrowed
    exact absurd rfl (unborrowed borrow membership active)
  · have live := crossing.transition.source_live source (Effect.source?_of_takes? takes) inside
    rw [same] at copied kept live
    exact ⟨copied, kept.resolve_right (sound.there _ live)⟩

/-- A silent statement gives no value to what is borrowed. -/
theorem Sound.not_given_of_silent
    (crossing : Builder.Crossing context.tree point before resolution after rest)
    (sound : Sound context.tree point before state)
    (silent : (state.step context resolution).diagnostics = [])
    (kept : state.ownership.stateOf context.tree borrow.referent = .owned ∨
      state.ownership.stateOf context.tree borrow.referent = .dropped)
    (membership : borrow ∈ state.ledger.borrows) (active : borrow.isActive = true)
    {target : Target} (given : resolution.effect.target? = some target) :
    target.place ≠ borrow.referent := by
  intro same
  have transition := crossing.transition
  cases target with
  | fresh place shadowed rebinds =>
      obtain ⟨found, known, _⟩ := (sound.borrows borrow membership).declared
      rw [← same] at known
      cases known.symm.trans (transition.fresh place shadowed rebinds given).1
  | existing place =>
      have assigned : resolution.effect ≠ .declare (.existing place) := by
        intro declares
        cases transition.declares _ declares
      rcases existing_of_silent sound.consistent sound.quiet given assigned silent with
        free | ⟨source, mutable, copy, binds, lost⟩
      · rw [sound.consistent.activeOn_eq_nil_iff] at free
        exact free borrow membership active same.symm
      · -- The place would have lost its value, but taking it leaves a copy behind.
        have live := transition.existing_live place given
        have isReferent : place = borrow.referent := same
        rw [isReferent] at live lost
        have owned := kept.resolve_right (sound.there _ live)
        apply lost
        cases source with
        | none => exact owned
        | some use =>
            refine (Ownership.stateOf_taken_of_copied context.tree ?_).trans owned
            intro taken _
            apply sound.copied_of_silent crossing silent membership active _ taken
            rw [binds]
            rfl

/-- A silent statement leaves alone what is borrowed, if the borrow lasts. -/
theorem Sound.spares_of_silent
    (crossing : Builder.Crossing context.tree point before resolution after rest)
    (sound : Sound context.tree point before state) (backed : state.Backed context.tree)
    (silent : (state.step context resolution).diagnostics = [])
    (membership : borrow ∈ state.ledger.borrows) (active : borrow.isActive = true)
    (lasts : (borrow.endedBy (state.settlement context resolution.effect) point).isActive = true) :
    resolution.effect.Spares borrow.referent
      (state.ownership.record context.tree borrow.referent).copy.isTrue where
  not_written source writes same := by
    have free := write_of_silent sound.quiet writes silent
    rw [sound.consistent.activeOn_eq_nil_iff] at free
    exact free borrow membership active same.symm
  not_given target given := by
    -- Reports are never taken back, so the state before was silent as well.
    have unreported := (later_step context sound.consistent resolution).silent_before silent
    exact sound.not_given_of_silent crossing silent (backed unreported borrow membership active)
      membership active given
  not_shadowed target given shadowed := by
    obtain ⟨_, _, there⟩ := (Borrow.isActive_endedBy_iff _ _ _).mp lasts
    cases there.symm.trans (settlement_of_shadowed given shadowed).2
  not_taken source takes same :=
    (sound.copied_of_silent crossing silent membership active takes same).1

/-- What an old borrow refers to keeps its value in silence, or is dropped. -/
theorem Sound.kept_after
    (crossing : Builder.Crossing context.tree point before resolution after rest)
    (sound : Sound context.tree point before state) (backed : state.Backed context.tree)
    (silent : (state.step context resolution).diagnostics = [])
    (membership : borrow ∈ state.ledger.borrows) (active : borrow.isActive = true) :
    (state.ownership.after context.tree resolution.effect).stateOf context.tree borrow.referent =
        .owned ∨
      (state.ownership.after context.tree resolution.effect).stateOf context.tree
        borrow.referent = .dropped := by
  have unreported := (later_step context sound.consistent resolution).silent_before silent
  apply Ownership.stateOf_after_of_kept context.tree (backed unreported borrow membership active)
  · intro source takes same _
    exact sound.copied_of_silent crossing silent membership active takes same
  · intro target declares same
    obtain ⟨found, known, _⟩ := (sound.borrows borrow membership).declared
    cases target with
    | existing place => cases crossing.transition.declares _ declares
    | fresh place shadowed rebinds =>
        have given : resolution.effect.target? = some (.fresh place shadowed rebinds) := by
          rw [declares]
          rfl
        have isNew : place = borrow.referent := same
        rw [← isNew] at known
        cases known.symm.trans (crossing.transition.fresh place shadowed rebinds given).1

theorem Backed.step
    (crossing : Builder.Crossing context.tree point before resolution after rest)
    (sound : Sound context.tree point before state) (backed : state.Backed context.tree) :
    (state.step context resolution).Backed context.tree := by
  intro silent next membership active
  rw [step_ownership]
  rcases mem_step context sound.consistent membership with
    ⟨old, listed, rfl⟩ | ⟨kind, target, place, id, lends, rfl⟩
  · have continues := Borrow.continues_settled context.tree resolution.point
      (state.settlement context resolution.effect) old
    rw [continues.referent]
    exact sound.kept_after crossing backed silent listed (continues.active_before active)
  · -- A new borrow is taken of a place that has its value.
    apply Ownership.stateOf_after_of_kept context.tree (borrow_of_silent sound.quiet lends silent)
    · intro use takes
      rw [lends] at takes
      cases takes
    · intro use declares
      rw [lends] at declares
      cases declares

theorem Backed.advance
    (crossing : Builder.Crossing context.tree point before resolution after rest)
    (sound : Sound context.tree point before state) (backed : state.Backed context.tree) :
    (context.advance state resolution).Backed context.tree := by
  have becomes := retireDead_becomes context (state.step context resolution) resolution.point
  intro silent next membership active
  rw [Context.advance, becomes.borrows (sound.step crossing).consistent] at membership
  rw [Context.advance, becomes.ownership]
  obtain ⟨old, listed, rfl⟩ := List.mem_map.mp membership
  rw [Borrow.endedIf_referent]
  exact backed.step crossing sound (becomes.silent_before silent) old listed
    ((Borrow.continues_endedIf _ _ old).active_before active)

end Silent

end State

namespace Context

variable {context : Context}

/-- Each later state still tells of the state before a statement, and so does the end. -/
theorem later_stateBefore (leads : Builder.Leads context.tree 0 {} context.tree.resolved)
    {point : Point} (count : Nat) (inside : point + count ≤ context.tree.resolved.length) :
    State.Later point (context.stateBefore point) (context.stateBefore (point + count)) := by
  induction count with
  | zero => exact .refl point _
  | succ count inductionHypothesis =>
      have next : point + count < context.tree.resolved.length := inside
      have listed := List.getElem?_eq_getElem next
      obtain ⟨before, after, rest, crossing, sound⟩ := crossing_at leads listed
      refine (inductionHypothesis (Nat.le_of_succ_le inside)).trans ?_
      rw [← Nat.add_assoc, stateBefore_succ listed]
      exact (sound.later_advance crossing).weaken (Nat.le_add_right point count)

theorem later_run (leads : Builder.Leads context.tree 0 {} context.tree.resolved)
    {point : Point} (inside : point ≤ context.tree.resolved.length) :
    State.Later point (context.stateBefore point) context.run := by
  obtain ⟨count, length⟩ := Nat.exists_eq_add_of_le inside
  have later := later_stateBefore leads count (Nat.le_of_eq length.symm)
  rw [← length] at later
  obtain ⟨_, _, sound⟩ := sound_stateBefore leads (Nat.le_refl _)
  exact later.trans (.of_becomes (run_becomes context) sound.consistent
    (Borrow.continues_endedBy _ _))

theorem backed_stateBefore (leads : Builder.Leads context.tree 0 {} context.tree.resolved)
    {point : Point} (inside : point ≤ context.tree.resolved.length) :
    (context.stateBefore point).Backed context.tree := by
  induction point with
  | zero =>
      intro _ borrow membership
      exact absurd membership List.not_mem_nil
  | succ point inductionHypothesis =>
      have listed := List.getElem?_eq_getElem (Nat.lt_of_succ_le inside)
      obtain ⟨before, after, rest, crossing, sound⟩ := crossing_at leads listed
      rw [stateBefore_succ listed]
      exact (inductionHypothesis (Nat.le_of_succ_le inside)).advance crossing sound

/-- Every borrow of a run that is active before a statement goes through it: it is among the
borrows there, and nothing ends it at the statement's own point. -/
theorem active_between (leads : Builder.Leads context.tree 0 {} context.tree.resolved)
    {borrow : Borrow} (membership : borrow ∈ context.run.ledger.borrows) {point stop : Point}
    (retired : borrow.retired = some stop) (started : borrow.created < point) (lasts : point < stop)
    {resolution : Resolution} (listed : context.tree.resolved[point]? = some resolution) :
    ∃ earlier ∈ (context.stateBefore point).ledger.borrows, earlier.Continues borrow ∧
      earlier.isActive = true ∧
      (earlier.endedBy ((context.stateBefore point).settlement context resolution.effect)
        point).isActive = true := by
  obtain ⟨inside, _⟩ := List.getElem?_eq_some_iff.mp listed
  obtain ⟨before, after, rest, crossing, sound⟩ := crossing_at leads listed
  obtain ⟨index, found⟩ := List.getElem?_of_mem membership
  obtain ⟨earlier, foundBefore⟩ := (later_run leads (Nat.le_of_lt inside)).present found started
  have memberBefore := List.mem_of_getElem? foundBefore
  -- What becomes of the borrow in this statement is final if it ends it.
  have stepped := State.step_getElem? context sound.consistent resolution foundBefore
  obtain ⟨next, foundNext, continuesNext⟩ :=
    (sound.later_retireDead crossing).old index _ stepped
  rw [← stateBefore_succ listed] at foundNext
  obtain ⟨last, foundLast, continuesLast⟩ :=
    (later_run leads (Nat.succ_le_of_lt inside)).old index next foundNext
  rw [found, Option.some.injEq] at foundLast
  subst foundLast
  have settled := continuesNext.trans continuesLast
  have ended := (Borrow.endedBy_continues_settled context.tree resolution.point
    ((context.stateBefore point).settlement context resolution.effect) earlier).trans settled
  rw [crossing.at_point] at ended
  have active : (earlier.endedBy ((context.stateBefore point).settlement context
      resolution.effect) point).isActive = true := by
    rw [Borrow.isActive_iff]
    cases early : (earlier.endedBy ((context.stateBefore point).settlement context
        resolution.effect) point).retired with
    | none => rfl
    | some instant =>
        have same := retired.symm.trans (ended.retired instant early)
        rw [Option.some.injEq] at same
        have before := ((sound.borrows earlier memberBefore).endedBy crossing.leads_before
          _).ended instant early
        rw [← same] at before
        exact absurd lasts (Nat.not_lt.mpr before)
  exact ⟨earlier, memberBefore, (Borrow.continues_endedBy _ _ _).trans ended,
    (Borrow.continues_endedBy _ _ _).active_before active, active⟩

/-- A borrow has ended by the end of the unit, so there is a statement wherever it lasts. -/
theorem statement_between (leads : Builder.Leads context.tree 0 {} context.tree.resolved)
    {borrow : Borrow} (membership : borrow ∈ context.run.ledger.borrows) {point stop : Point}
    (retired : borrow.retired = some stop) (lasts : point < stop) :
    ∃ resolution, context.tree.resolved[point]? = some resolution := by
  obtain ⟨builder, _, sound, _⟩ := sound_run leads
  have beforeEnd : stop ≤ context.tree.unit.endPoint :=
    (sound borrow membership).1.ended stop retired
  rw [← leads.end_eq, Nat.zero_add] at beforeEnd
  exact ⟨_, List.getElem?_eq_getElem (Nat.lt_of_lt_of_le lasts beforeEnd)⟩

theorem spares_between (leads : Builder.Leads context.tree 0 {} context.tree.resolved)
    (silent : context.run.diagnostics = []) {borrow : Borrow}
    (membership : borrow ∈ context.run.ledger.borrows) {point stop : Point}
    (retired : borrow.retired = some stop) (started : borrow.created < point)
    (lasts : point < stop) {resolution : Resolution}
    (listed : context.tree.resolved[point]? = some resolution) :
    resolution.effect.Spares borrow.referent
      ((context.stateBefore point).ownership.record context.tree borrow.referent).copy.isTrue := by
  obtain ⟨inside, _⟩ := List.getElem?_eq_some_iff.mp listed
  obtain ⟨before, after, rest, crossing, sound⟩ := crossing_at leads listed
  obtain ⟨earlier, known, continues, active, stays⟩ :=
    active_between leads membership retired started lasts listed
  have silentNext := (later_run leads (Nat.succ_le_of_lt inside)).silent_before silent
  rw [stateBefore_succ listed] at silentNext
  have silentStep := (sound.later_retireDead crossing).silent_before silentNext
  rw [continues.referent]
  exact sound.spares_of_silent crossing (backed_stateBefore leads (Nat.le_of_lt inside))
    silentStep known active stays

end Context

/-- An accepted unit is not too large and has a scope tree, and its run reports nothing. -/
theorem CodeUnit.admitted_of_accepted {unit : CodeUnit} {config : Config} {recordStates : Bool}
    {result : UnitResult} (analysed : unit.analyse config recordStates = .ok result)
    (accepted : result.accepted = true) :
    config.admits unit = .ok () ∧ ∃ tree, unit.scopeTree = .ok tree ∧
      result.borrows = (Context.ofTree config tree).run.ledger.borrows ∧
      (Context.ofTree config tree).run.diagnostics = [] := by
  rw [UnitResult.accepted, Bool.and_eq_true, List.isEmpty_iff] at accepted
  obtain ⟨faultless, silent⟩ := accepted
  rw [CodeUnit.analyse] at analysed
  cases checked : unit.check config recordStates with
  | error reason =>
      rw [checked] at analysed
      obtain ⟨fault, _, done⟩ := bind_eq_ok_iff.mp analysed
      cases done
      cases faultless
  | ok outcome =>
      rw [checked] at analysed
      cases analysed
      obtain ⟨_, admitted, done⟩ := bind_eq_ok_iff.mp checked
      split at done
      · cases done
      · cases done
      · next tree built =>
          cases done
          exact ⟨admitted, tree, built, rfl, silent⟩

theorem CodeUnit.run_of_accepted {unit : CodeUnit} {config : Config} {recordStates : Bool}
    {result : UnitResult} (analysed : unit.analyse config recordStates = .ok result)
    (accepted : result.accepted = true) :
    ∃ tree, unit.scopeTree = .ok tree ∧
      result.borrows = (Context.ofTree config tree).run.ledger.borrows ∧
      (Context.ofTree config tree).run.diagnostics = [] :=
  (admitted_of_accepted analysed accepted).2

/-- In an accepted unit, every statement strictly between the start and the end of a borrow
leaves the borrowed place alone; only a value that is copied at that point may be taken. -/
theorem accepted_spares_borrowed {unit : CodeUnit} {config : Config} {recordStates : Bool}
    {result : UnitResult} (analysed : unit.analyse config recordStates = .ok result)
    (accepted : result.accepted = true) :
    ∃ tree, unit.scopeTree = .ok tree ∧
      ∀ borrow ∈ result.borrows, ∀ point stop, borrow.retired = some stop →
        borrow.created < point → point < stop →
        ∃ resolution, tree.resolved[point]? = some resolution ∧ resolution.point = point ∧
          resolution.effect.Spares borrow.referent
            (((Context.ofTree config tree).stateBefore point).ownership.record tree
              borrow.referent).copy.isTrue := by
  obtain ⟨tree, built, borrows, silent⟩ := CodeUnit.run_of_accepted analysed accepted
  have leads : Builder.Leads (Context.ofTree config tree).tree 0 {} tree.resolved :=
    (Builder.leads_of_scopeTree built).2
  refine ⟨tree, built, ?_⟩
  rw [borrows]
  intro borrow membership point stop retired started lasts
  obtain ⟨resolution, listed⟩ := Context.statement_between leads membership retired lasts
  obtain ⟨_, _, _, crossing, _⟩ := Context.crossing_at leads listed
  exact ⟨resolution, listed, crossing.at_point,
    Context.spares_between leads silent membership retired started lasts listed⟩

/-- While a value that may be copied is borrowed, it is bound to another place and the reference
is passed on; after that the place is borrowed once more and written to. -/
def copiedUnit : CodeUnit := .ofActions "copied" [
  .bind (.str "x") (.bool true) none (.bool false) (.bool true),
  .borrow .shared (.str "r") (.str "x"),
  .bind (.str "y") (.bool false) (some (.str "x")) (.bool false) (.bool false),
  .move (.str "s") (.str "r"),
  .read (.str "s"),
  .consume (.str "s"),
  .borrow .exclusive (.str "t") (.str "x"),
  .write (.str "t"),
  .consume (.str "t"),
  .write (.str "x")]

theorem copied_spares_borrowed :
    ∃ result, copiedUnit.analyse {} false = .ok result ∧ result.accepted = true ∧
      (result.borrows.map fun borrow => (borrow.referent, borrow.extent?)) =
        [(0, some ⟨1, 6⟩), (0, some ⟨6, 9⟩)] ∧
      ∃ tree, copiedUnit.scopeTree = .ok tree ∧
        ∀ borrow ∈ result.borrows, ∀ point stop, borrow.retired = some stop →
          borrow.created < point → point < stop →
          ∃ resolution, tree.resolved[point]? = some resolution ∧ resolution.point = point ∧
            resolution.effect.Spares borrow.referent
              (((Context.ofTree {} tree).stateBefore point).ownership.record tree
                borrow.referent).copy.isTrue := by
  have known : ((copiedUnit.analyse {} false).toOption.map fun result =>
      (result.accepted, result.borrows.map fun borrow => (borrow.referent, borrow.extent?))) =
        some (true, [(0, some ⟨1, 6⟩), (0, some ⟨6, 9⟩)]) := by decide
  cases analysed : copiedUnit.analyse {} false with
  | error reason =>
      rw [analysed] at known
      cases known
  | ok result =>
      rw [analysed] at known
      obtain ⟨accepted, borrows⟩ := Prod.mk.inj (Option.some.inj known)
      exact ⟨result, rfl, accepted, borrows, accepted_spares_borrowed analysed accepted⟩

end LoanCheck
