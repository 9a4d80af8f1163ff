import LoanCheck.Proofs.Check.Extents
import LoanCheck.Proofs.Check.Silence

/-!
# References that are passed on

A statement that moves a reference from one place to another takes the value, makes room
at the target and then passes on what the source still keeps.  So the borrow of a moved
reference stays active and is kept by the target, unless making room ends it first.
-/

namespace LoanCheck

namespace Borrow

variable {settlement : Settlement} {borrow : Borrow} {point : Point}

theorem passedAlong_of_ended (tree : ScopeTree) (passed : Option (PlaceId × PlaceId))
    (ended : borrow.isActive = false) : borrow.passedAlong tree passed = borrow := by
  unfold passedAlong
  split
  · simp [passedOn, ended]
  · rfl

/-- A borrow that has ended at the statement's own point is settled. -/
theorem settled_of_endedBy (tree : ScopeTree)
    (ended : (borrow.endedBy settlement point).isActive = false) :
    borrow.settled tree point settlement = borrow.endedBy settlement point := by
  rw [settled, Function.comp_apply, Function.comp_apply, passedAlong_of_ended tree _ ended,
    endedIf_of_ended ended]

theorem settled_of_kept (tree : ScopeTree) (unmarked : settlement.marked = none)
    (unspent : settlement.spent = none) (keeps : settlement.ended borrow.holder = false)
    (there : settlement.dropped borrow.referent = false) :
    borrow.settled tree point settlement = borrow.passedAlong tree settlement.passed := by
  simp [settled, endedBy, endedIf, outlivedIf, unmarked, unspent, keeps, there]

theorem settled_of_overwritten (tree : ScopeTree) (unmarked : settlement.marked = none)
    (active : borrow.isActive = true) (ends : settlement.ended borrow.holder = true) :
    borrow.settled tree point settlement = { borrow with retired := some point } := by
  have ended : borrow.endedBy settlement point = { borrow with retired := some point } := by
    simp only [endedBy, Function.comp_apply, unmarked, markedIf_none, endedIf, active, ends,
      Bool.and_self, if_true]
    rfl
  rw [settled_of_endedBy tree, ended]
  rw [ended]
  rfl

theorem settled_of_outliving (tree : ScopeTree) (unmarked : settlement.marked = none)
    (active : borrow.isActive = true) (keeps : settlement.ended borrow.holder = false)
    (gone : settlement.dropped borrow.referent = true) :
    borrow.settled tree point settlement =
      { borrow with retired := some point, dangling := true } := by
  have ended : borrow.endedBy settlement point =
      { borrow with retired := some point, dangling := true } := by
    simp [endedBy, endedIf, outlivedIf, unmarked, active, keeps, gone]
  rw [settled_of_endedBy tree, ended]
  rw [ended]
  rfl

end Borrow

namespace State

/-- A value is bound to the very place it was taken from, which still has it as a copy. -/
def BindsCopyBack (tree : ScopeTree) (state : State) (target : Target) (source : Use) : Prop :=
  target = .existing source.place ∧
    (state.ownership.record tree source.place).copy.isTrue = true ∧
    state.ownership.stateOf tree source.place = .owned

variable {context : Context} {state : State} {effect : Effect} {target : Target} {source : Use}

/-- Making room ends what the source keeps only where a copy is bound back to it. -/
theorem settlement_ended_iff (context : Context) (state : State)
    (passes : effect.passes? = some (target, source))
    (inside : source.escaped = false) (notHidden : target.shadowed? ≠ some source.place)
    (notAssigned : effect ≠ .move (.existing source.place) source) :
    (state.settlement context effect).ended source.place = true ↔
      state.BindsCopyBack context.tree target source := by
  rcases Effect.passes?_cases passes with ⟨mutable, copy, rfl⟩ | rfl
  · cases target with
    | fresh place shadowed rebinds =>
        simp only [settlement, Target.ends, beq_iff_eq, BindsCopyBack, reduceCtorEq, false_and,
          iff_false]
        exact notHidden
    | existing place =>
        simp only [settlement, Target.ends, BindsCopyBack, Option.elim_some, Target.place,
          Bool.and_eq_true, beq_iff_eq, Target.existing.injEq]
        constructor
        · rintro ⟨owned, rfl⟩
          exact ⟨rfl, (Ownership.stateOf_taken_eq_owned_iff context.tree inside _).mp owned⟩
        · rintro ⟨rfl, copied⟩
          exact ⟨(Ownership.stateOf_taken_eq_owned_iff context.tree inside _).mpr copied, rfl⟩
  · have kept : ¬target.ends true source.place = true := by
      cases target with
      | fresh place shadowed rebinds =>
          intro ends
          exact notHidden (beq_iff_eq.mp ends)
      | existing place =>
          intro ends
          apply notAssigned
          rw [beq_iff_eq.mp ends]
    have notBack : ¬state.BindsCopyBack context.tree target source := by
      rintro ⟨rfl, _⟩
      exact notAssigned rfl
    exact iff_of_false kept notBack

section Outliving

variable {point : Point} {span : Span} {borrow : Borrow}

theorem dropPlace_adds (consistent : state.ledger.Consistent)
    (membership : borrow ∈ state.ledger.borrows) (active : borrow.isActive = true)
    (other : borrow.holder ≠ borrow.referent) :
    Adds state (dropPlace context state borrow.referent point span)
      (Diagnostic.Tells .danglingReference point (some borrow.id)) := by
  have ended := retireHeldBy_becomes state borrow.referent point
  have stays : borrow ∈ (state.retireHeldBy borrow.referent point).ledger.borrows := by
    rw [ended.borrows consistent]
    refine List.mem_map.mpr ⟨borrow, membership, ?_⟩
    simp [Borrow.endedIf, other]
  -- The place gives up its own borrows first; this one has another holder and is left to judge.
  have borrowed := (ended.consistent consistent).mem_activeOn.mpr ⟨stays, active, rfl⟩
  exact (foldl_reportOutliving_adds borrowed borrow.referent _).after_reports ended.reports

theorem declareFresh_adds (consistent : state.ledger.Consistent)
    (membership : borrow ∈ state.ledger.borrows) (active : borrow.isActive = true)
    (other : borrow.holder ≠ borrow.referent) (place : PlaceId) :
    Adds state (declareFresh context state place (some borrow.referent) point span)
      (Diagnostic.Tells .danglingReference point (some borrow.id)) :=
  (dropPlace_adds consistent membership active other).then_reports
    (Becomes.of_ownership (dropPlace context state borrow.referent point span)
      fun ownership => ownership.declare context.tree place).reports

theorem assignTarget_adds (consistent : state.ledger.Consistent)
    (membership : borrow ∈ state.ledger.borrows) (active : borrow.isActive = true)
    (other : borrow.holder ≠ borrow.referent) (shadowed : target.shadowed? = some borrow.referent) :
    Adds state (assignTarget context state target point span)
      (Diagnostic.Tells .danglingReference point (some borrow.id)) := by
  cases target with
  | existing place => cases shadowed
  | fresh place hidden rebinds =>
      cases shadowed
      exact (declareFresh_adds consistent membership active other place).then_reports
        (Becomes.of_ownership (declareFresh context state place (some borrow.referent) point span)
          fun ownership => ownership.fill context.tree place).reports

theorem rebindTarget_adds_dangling {mutable copy : Flag} (consistent : state.ledger.Consistent)
    (membership : borrow ∈ state.ledger.borrows) (active : borrow.isActive = true)
    (other : borrow.holder ≠ borrow.referent) (shadowed : target.shadowed? = some borrow.referent) :
    Adds state (rebindTarget context state target mutable copy point span)
      (Diagnostic.Tells .danglingReference point (some borrow.id)) := by
  cases target with
  | existing place => cases shadowed
  | fresh place hidden rebinds =>
      cases shadowed
      simp only [rebindTarget, Target.place]
      refine Adds.then_reports ?_ (bindPlace_becomes context _ place point mutable copy _ span
        _).reports
      split
      · have duplicate := reportDuplicate_becomes context state borrow.referent point span
          (borrowNotes context state borrow.referent)
        have stillThere : borrow ∈ (reportDuplicate context state borrow.referent point span
            (borrowNotes context state borrow.referent)).ledger.borrows := by
          rw [duplicate.borrows consistent, List.map_id]
          exact membership
        exact (declareFresh_adds (duplicate.consistent consistent) stillThere active other
          place).after_reports duplicate.reports
      · exact declareFresh_adds consistent membership active other place

/-- A statement that passes a value on and hides a borrowed place reports the borrow. -/
theorem step_adds_dangling {resolution : Resolution} (consistent : state.ledger.Consistent)
    (passes : resolution.effect.passes? = some (target, source)) (inside : source.escaped = false)
    (membership : borrow ∈ state.ledger.borrows) (active : borrow.isActive = true)
    (other : borrow.holder ≠ borrow.referent) (shadowed : target.shadowed? = some borrow.referent) :
    Adds state (state.step context resolution)
      (Diagnostic.Tells .danglingReference resolution.point (some borrow.id)) := by
  obtain ⟨point, scope, span, effect⟩ := resolution
  have tookSource := takeSource_becomes context state source point span
  have stillThere : borrow ∈ (takeSource context state source point span).1.ledger.borrows := by
    have blameless : state.blames? source = none := by simp [blames?, inside]
    rw [tookSource.borrows consistent, blameless]
    exact List.mem_map.mpr ⟨borrow, membership, rfl⟩
  rcases Effect.passes?_cases passes with ⟨mutable, copy, rfl⟩ | rfl
  · simp only [step, bind_some]
    exact ((rebindTarget_adds_dangling (tookSource.consistent consistent) stillThere active other
      shadowed).after_reports tookSource.reports).then_reports
        (passOn_becomes context _ source target).reports
  · simp only [step, move_eq]
    exact ((assignTarget_adds (tookSource.consistent consistent) stillThere active other
      shadowed).after_reports tookSource.reports).then_reports
        (passOn_becomes context _ source target).reports

end Outliving

/-- A copy that is bound back to where it came from is reported as a duplicate. -/
theorem step_adds_duplicate {resolution : Resolution}
    (passes : resolution.effect.passes? = some (target, source)) (inside : source.escaped = false)
    (notAssigned : resolution.effect ≠ .move (.existing source.place) source)
    (back : state.BindsCopyBack context.tree target source) :
    Adds state (state.step context resolution)
      (Diagnostic.Tells .duplicateBinding resolution.point none) := by
  obtain ⟨point, scope, span, effect⟩ := resolution
  obtain ⟨rfl, copied⟩ := back
  have tookSource := takeSource_becomes context state source point span
  have owned : (takeSource context state source point span).1.ownership.stateOf context.tree
      source.place = .owned := by
    rw [tookSource.ownership]
    exact (Ownership.stateOf_taken_eq_owned_iff context.tree inside _).mpr copied
  rcases Effect.passes?_cases passes with ⟨mutable, copy, rfl⟩ | rfl
  · simp only [step, bind_some]
    exact ((rebindTarget_adds owned).after_reports tookSource.reports).then_reports
      (passOn_becomes context _ source _).reports
  · exact absurd rfl notAssigned

section Step

variable {point : Point} {before after : Builder} {resolution : Resolution}
  {rest : List Resolution} {borrow : Borrow}

theorem Sound.settles
    (crossing : Builder.Crossing context.tree point before resolution after rest)
    (sound : Sound context.tree point before state) (membership : borrow ∈ state.ledger.borrows) :
    (state.step context resolution).ledger.borrows[borrow.id]? =
      some (borrow.settled context.tree point (state.settlement context resolution.effect)) := by
  have found := sound.consistent.getElem?_of_mem membership
  have stepped := step_getElem? context sound.consistent resolution found
  rw [crossing.at_point] at stepped
  exact stepped

theorem Sound.kept_by_target
    (crossing : Builder.Crossing context.tree point before resolution after rest)
    (sound : Sound context.tree point before state) (membership : borrow ∈ state.ledger.borrows)
    (active : borrow.isActive = true) (keeps : borrow.holder = source.place)
    (passes : resolution.effect.passes? = some (target, source)) (inside : source.escaped = false)
    (goesOn : (state.settlement context resolution.effect).ended source.place = false)
    (there : target.shadowed? ≠ some borrow.referent) :
    (state.step context resolution).ledger.borrows[borrow.id]? = some { borrow with
      holder := target.place, holderScope := context.tree.scopeOf target.place } := by
  obtain ⟨unmarked, unspent, dropped, passed⟩ := settlement_of_passes context state passes inside
  have spared : (state.settlement context resolution.effect).dropped borrow.referent = false := by
    rw [dropped, ← Bool.not_eq_true, Target.drops_iff]
    exact there
  have borrowSound := sound.borrows borrow membership
  have reference := crossing.leads_before.holdsReference (borrowSound.holder_reference active)
  rw [keeps] at reference
  rw [← keeps] at goesOn
  rw [sound.settles crossing membership,
    Borrow.settled_of_kept context.tree unmarked unspent goesOn spared, passed]
  by_cases same : source.place = target.place
  · -- The source is bound again, so its borrows stay where they are.
    have nothing : context.tree.passes? source target = none := by
      simp [ScopeTree.passes?, same]
    rw [nothing, ← same, ← keeps, ← borrowSound.holderScope]
    rfl
  · simp [ScopeTree.passes?, same, inside, reference, Borrow.passedAlong, Borrow.passedOn, active,
      keeps]

/-- A borrow whose referent is hidden by the target is ended and reported. -/
theorem Sound.ends_hidden
    (crossing : Builder.Crossing context.tree point before resolution after rest)
    (sound : Sound context.tree point before state) (membership : borrow ∈ state.ledger.borrows)
    (active : borrow.isActive = true) (keeps : borrow.holder = source.place)
    (passes : resolution.effect.passes? = some (target, source)) (inside : source.escaped = false)
    (goesOn : (state.settlement context resolution.effect).ended source.place = false)
    (notHidden : target.shadowed? ≠ some source.place)
    (shadowed : target.shadowed? = some borrow.referent) :
    (state.step context resolution).ledger.borrows[borrow.id]? =
        some { borrow with retired := some point, dangling := true } ∧
      state.Adds (state.step context resolution)
        (Diagnostic.Tells .danglingReference point (some borrow.id)) := by
  obtain ⟨unmarked, _, dropped, _⟩ := settlement_of_passes context state passes inside
  have gone : (state.settlement context resolution.effect).dropped borrow.referent = true := by
    rw [dropped]
    exact Target.drops_iff.mpr shadowed
  have other : borrow.holder ≠ borrow.referent := by
    intro same
    rw [keeps] at same
    rw [same] at notHidden
    exact notHidden shadowed
  have reported : Adds state (state.step context resolution)
      (Diagnostic.Tells .danglingReference resolution.point (some borrow.id)) :=
    step_adds_dangling sound.consistent passes inside membership active other shadowed
  rw [crossing.at_point] at reported
  rw [← keeps] at goesOn
  rw [sound.settles crossing membership,
    Borrow.settled_of_outliving context.tree unmarked active goesOn gone]
  exact ⟨rfl, reported⟩

/-- A borrow kept by a place that is bound again while it has its value is ended, and the bind
is reported. -/
theorem Sound.ends_bound_back
    (crossing : Builder.Crossing context.tree point before resolution after rest)
    (sound : Sound context.tree point before state) (membership : borrow ∈ state.ledger.borrows)
    (active : borrow.isActive = true) (keeps : borrow.holder = source.place)
    (passes : resolution.effect.passes? = some (target, source)) (inside : source.escaped = false)
    (ends : (state.settlement context resolution.effect).ended source.place = true)
    (notAssigned : resolution.effect ≠ .move (.existing source.place) source)
    (back : state.BindsCopyBack context.tree target source) :
    (state.step context resolution).ledger.borrows[borrow.id]? =
        some { borrow with retired := some point } ∧
      state.Adds (state.step context resolution)
        (Diagnostic.Tells .duplicateBinding point none) := by
  obtain ⟨unmarked, _, _, _⟩ := settlement_of_passes context state passes inside
  have reported := step_adds_duplicate passes inside notAssigned back
  rw [crossing.at_point] at reported
  rw [← keeps] at ends
  rw [sound.settles crossing membership,
    Borrow.settled_of_overwritten context.tree unmarked active ends]
  exact ⟨rfl, reported⟩

end Step

end State

/-- The borrow of a reference that is moved, by a statement that does not hide the source and
does not assign the source to itself.  The target keeps the borrow from then on, but for two
cases that are reported: the target hides what is borrowed, or a copy is bound back. -/
theorem moved_reference_keeps_borrow {unit : CodeUnit} {config : Config} {tree : ScopeTree}
    (built : unit.scopeTree = .ok tree) {point : Point} {resolution : Resolution} {target : Target}
    {source : Use} {borrow : Borrow}
    (listed : tree.resolved[point]? = some resolution)
    (passes : resolution.effect.passes? = some (target, source)) (inside : source.escaped = false)
    (membership : borrow ∈ ((Context.ofTree config tree).stateBefore point).ledger.borrows)
    (active : borrow.isActive = true) (keeps : borrow.holder = source.place)
    (notHidden : target.shadowed? ≠ some source.place)
    (notAssigned : resolution.effect ≠ .move (.existing source.place) source) :
    let context := Context.ofTree config tree
    let before := context.stateBefore point
    let after := before.step context resolution
    (target.shadowed? ≠ some borrow.referent → ¬before.BindsCopyBack tree target source →
      after.ledger.borrows[borrow.id]? =
        some { borrow with holder := target.place, holderScope := tree.scopeOf target.place }) ∧
    (target.shadowed? = some borrow.referent →
      after.ledger.borrows[borrow.id]? =
          some { borrow with retired := some point, dangling := true } ∧
        before.Adds after (Diagnostic.Tells .danglingReference point (some borrow.id))) ∧
    (before.BindsCopyBack tree target source →
      after.ledger.borrows[borrow.id]? = some { borrow with retired := some point } ∧
        before.Adds after (Diagnostic.Tells .duplicateBinding point none)) := by
  intro context before after
  have leads : Builder.Leads context.tree 0 {} tree.resolved := (Builder.leads_of_scopeTree built).2
  obtain ⟨builder, next, rest, crossing, sound⟩ := Context.crossing_at leads listed
  have endedIff := State.settlement_ended_iff context before passes inside notHidden notAssigned
  refine ⟨?_, ?_, ?_⟩
  · intro there notBack
    have goesOn := Bool.eq_false_iff.mpr (endedIff.not.mpr notBack)
    exact sound.kept_by_target crossing membership active keeps passes inside goesOn there
  · intro shadowed
    have notBack : ¬before.BindsCopyBack tree target source := by
      rintro ⟨rfl, _⟩
      cases shadowed
    have goesOn := Bool.eq_false_iff.mpr (endedIff.not.mpr notBack)
    exact sound.ends_hidden crossing membership active keeps passes inside goesOn notHidden
      shadowed
  · intro back
    exact sound.ends_bound_back crossing membership active keeps passes inside
      (endedIff.mpr back) notAssigned back

/-- What a statement moves from where to where, and the borrows before and right after it. -/
def CodeUnit.movedAt? (unit : CodeUnit) (config : Config) (point : Point) :
    Option ((Target × Use) × List Borrow × List Borrow) := do
  let tree ← unit.scopeTree.toOption
  let resolution ← tree.resolved[point]?
  let moved ← resolution.effect.passes?
  let context := Context.ofTree config tree
  let before := context.stateBefore point
  return (moved, before.ledger.borrows, (before.step context resolution).ledger.borrows)

theorem CodeUnit.movedAt?_cases {unit : CodeUnit} {config : Config} {point : Point}
    {moved : Target × Use} {before after : List Borrow}
    (found : unit.movedAt? config point = some (moved, before, after)) :
    ∃ tree resolution, unit.scopeTree = .ok tree ∧ tree.resolved[point]? = some resolution ∧
      resolution.effect.passes? = some moved ∧
      let context := Context.ofTree config tree
      let state := context.stateBefore point
      state.ledger.borrows = before ∧ (state.step context resolution).ledger.borrows = after := by
  simp only [movedAt?, Option.bind_eq_bind, Option.bind_eq_some_iff, Option.pure_def,
    Option.some.injEq, Prod.mk.injEq] at found
  obtain ⟨tree, built, resolution, listed, given, passes, rfl, before, after⟩ := found
  exact ⟨tree, resolution, toOption_eq_some_iff.mp built, listed, passes, before, after⟩

/-- A reference is moved to a new place that hides an old one. -/
def passedUnit : CodeUnit := .ofActions "passed" [
  .bind (.str "x") (.bool true) none (.bool false) (.bool false),
  .bind (.str "y") (.bool false) none (.bool false) (.bool false),
  .borrow .exclusive (.str "r") (.str "x"),
  .bind (.str "y") (.bool false) (some (.str "r")) (.bool true) (.bool false),
  .write (.str "y")]

def passedBorrow : Borrow :=
  { id := 0, referent := 0, kind := .exclusive, created := 2, holder := 2, holderScope := 0,
    origin := {} }

theorem passed_borrow_kept :
    ∃ tree resolution, passedUnit.scopeTree = .ok tree ∧ tree.resolved[3]? = some resolution ∧
      resolution.effect.passes? = some (.fresh 3 (some 1) false, ⟨2, false⟩) ∧
      let context := Context.ofTree { precise := true } tree
      let before := context.stateBefore 3
      before.ledger.borrows = [passedBorrow] ∧
        (before.step context resolution).ledger.borrows[0]? =
          some { passedBorrow with holder := 3, holderScope := tree.scopeOf 3 } := by
  have known : passedUnit.movedAt? { precise := true } 3 =
      some ((.fresh 3 (some 1) false, ⟨2, false⟩), [passedBorrow],
        [{ passedBorrow with holder := 3 }]) := by decide
  obtain ⟨tree, resolution, built, listed, passes, borrows, _⟩ := CodeUnit.movedAt?_cases known
  refine ⟨tree, resolution, built, listed, passes, borrows, ?_⟩
  have membership : passedBorrow ∈
      ((Context.ofTree { precise := true } tree).stateBefore 3).ledger.borrows := by
    rw [borrows]
    exact List.mem_singleton_self _
  have notAssigned : resolution.effect ≠ .move (.existing 2) ⟨2, false⟩ := by
    intro assigned
    rw [assigned] at passes
    cases passes
  have kept := moved_reference_keeps_borrow built listed passes rfl membership rfl rfl nofun
    notAssigned
  exact kept.1 nofun nofun

/-- A reference to `x` is kept in `r` when the given statement is taken. -/
def movingUnit (copy : Bool) (action : Action) : CodeUnit := .ofActions "moving" [
  .bind (.str "x") (.bool true) none (.bool false) (.bool false),
  .declare (.str "r") (.bool true) (.bool copy),
  .borrow .shared (.str "r") (.str "x"),
  action,
  .write (.str "x"),
  .read (.str "r")]

def movingBorrow : Borrow :=
  { id := 0, referent := 0, kind := .shared, created := 2, holder := 1, holderScope := 0,
    origin := {} }

def hidingReferent : CodeUnit :=
  movingUnit false (.bind (.str "x") (.bool false) (some (.str "r")) (.bool true) (.bool false))

def hidingSource : CodeUnit :=
  movingUnit false (.bind (.str "r") (.bool false) (some (.str "r")) (.bool true) (.bool false))

def bindingBack : CodeUnit :=
  movingUnit true (.bind (.str "r") (.bool true) (some (.str "r")) (.bool false) (.bool true))

def assigningSource : CodeUnit := movingUnit false (.move (.str "r") (.str "r"))

/-- A moved reference may lose its borrow: where its new place hides what is borrowed, where a
copy is bound back to its own place, and, in units that are accepted, where the new place hides
the old one or a place is assigned to itself. -/
theorem moved_reference_may_lose_borrow :
    hidingReferent.movedAt? {} 3 = some ((.fresh 2 (some 0) false, ⟨1, false⟩), [movingBorrow],
      [{ movingBorrow with retired := some 3, dangling := true }]) ∧
    bindingBack.movedAt? {} 3 = some ((.existing 1, ⟨1, false⟩), [movingBorrow],
      [{ movingBorrow with retired := some 3 }]) ∧
    hidingSource.movedAt? {} 3 = some ((.fresh 2 (some 1) false, ⟨1, false⟩), [movingBorrow],
      [{ movingBorrow with retired := some 3 }]) ∧
    assigningSource.movedAt? {} 3 = some ((.existing 1, ⟨1, false⟩), [movingBorrow],
      [{ movingBorrow with retired := some 3 }]) ∧
    [hidingReferent, bindingBack, hidingSource, assigningSource].map (fun unit =>
      (unit.analyse {} false).toOption.map UnitResult.accepted) =
        [some false, some false, some true, some true] := by
  refine ⟨?_, ?_, ?_, ?_, ?_⟩ <;> decide

end LoanCheck
