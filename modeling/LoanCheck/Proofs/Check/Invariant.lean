import LoanCheck.Check.Run
import LoanCheck.Proofs.Check.Settlement
import LoanCheck.Proofs.Loan.Sound

/-!
# The state of the analysis stays sound

`State.Sound` ties the state to the scopes at the same point.  The transition of a
statement keeps it, the ending of borrows that are used no more keeps it, and so it holds
after any number of statements.
-/

namespace LoanCheck

theorem Target.ends_of_shadowed {target : Target} {place : PlaceId}
    (shadowed : target.shadowed? = some place) (overwrites : Bool) :
    target.ends overwrites place = true := by
  cases target with
  | existing kept => cases shadowed
  | fresh new hidden rebinds => exact beq_iff_eq.mpr shadowed

theorem Target.drops_iff {target : Target} {place : PlaceId} :
    target.drops place = true ↔ target.shadowed? = some place := by
  simp [Target.drops]

namespace State

variable {context : Context} {state : State}

theorem settlement_of_shadowed {effect : Effect} {target : Target} {place : PlaceId}
    (given : effect.target? = some target) (shadowed : target.shadowed? = some place) :
    (state.settlement context effect).ended place = true ∧
      (state.settlement context effect).dropped place = true := by
  have ends := fun overwrites => Target.ends_of_shadowed shadowed overwrites
  have drops := Target.drops_iff.mpr shadowed
  cases effect with
  | bind other source mutable copy =>
      cases given
      exact ⟨ends _, drops⟩
  | declare other =>
      cases given
      exact ⟨drops, drops⟩
  | move other source =>
      cases given
      exact ⟨ends true, drops⟩
  | borrow kind other source =>
      cases given
      exact ⟨ends true, drops⟩
  | _ => cases given

theorem settlement_of_closed {effect : Effect} {scope : ScopeId} {place : PlaceId}
    (closes : effect.closes? = some scope)
    (remains : place ∈ state.ownership.remaining context.tree scope) :
    (state.settlement context effect).ended place = true ∧
      (state.settlement context effect).dropped place = true := by
  cases effect with
  | exit closing =>
      cases closes
      simpa [settlement] using remains
  | _ => cases closes

/-- A place that can be named before a statement and not after it stops keeping borrows,
and what borrows it outlives it. -/
theorem settlement_of_hidden {point : Point} {before after : Builder} {resolution : Resolution}
    {rest : List Resolution} {place : PlaceId}
    (crossing : Builder.Crossing context.tree point before resolution after rest)
    (there : state.ownership.stateOf context.tree place ≠ .dropped)
    (live : before.Live place) (hidden : ¬after.Live place) :
    (state.settlement context resolution.effect).ended place = true ∧
      (state.settlement context resolution.effect).dropped place = true := by
  rcases crossing.transition.live_after place live with
    stays | ⟨target, given, shadowed⟩ | ⟨scope, closes, listed⟩
  · exact absurd stays hidden
  · exact settlement_of_shadowed given shadowed
  · have leads := crossing.leads_before
    obtain ⟨found, known, inScope⟩ := (leads.wellFormed.listed scope place).mp listed
    have remains : place ∈ state.ownership.remaining context.tree scope := by
      simp only [Ownership.remaining, List.mem_filter, bne_iff_ne]
      exact ⟨(leads.mem_placesOf_iff known).mpr inScope, there⟩
    exact settlement_of_closed closes remains

theorem settlement_of_passes (context : Context) (state : State) {effect : Effect}
    {target : Target} {source : Use} (passes : effect.passes? = some (target, source))
    (inside : source.escaped = false) :
    (state.settlement context effect).marked = none ∧
      (state.settlement context effect).spent = none ∧
      (state.settlement context effect).dropped = target.drops ∧
      (state.settlement context effect).passed = context.tree.passes? source target := by
  have blameless : state.blames? source = none := by simp [blames?, inside]
  rcases Effect.passes?_cases passes with ⟨mutable, copy, rfl⟩ | rfl
  · exact ⟨blameless, rfl, rfl, rfl⟩
  · exact ⟨blameless, rfl, rfl, rfl⟩

/-- References are passed on from the operand of a statement to its target. -/
theorem settlement_passed {effect : Effect} {source dest : PlaceId}
    (passed : (state.settlement context effect).passed = some (source, dest)) :
    ∃ target use, effect.passes? = some (target, use) ∧ use.place = source ∧
      target.place = dest ∧ source ≠ dest := by
  have unfolded : ∀ (use : Use) (target : Target),
      context.tree.passes? use target = some (source, dest) →
        use.place = source ∧ target.place = dest ∧ source ≠ dest := by
    intro use target passes
    unfold ScopeTree.passes? at passes
    split at passes
    · next moves =>
        cases passes
        exact ⟨rfl, rfl, bne_iff_ne.mp (Bool.and_eq_true_iff.mp moves).2⟩
    · cases passes
  cases effect with
  | bind target operand mutable copy =>
      obtain ⟨use, rfl, passes⟩ := Option.bind_eq_some_iff.mp passed
      exact ⟨target, use, rfl, unfolded use target passes⟩
  | move target use => exact ⟨target, use, rfl, unfolded use target passed⟩
  | _ => cases passed

end State

namespace Borrow

theorem continues_endedBy (settlement : Settlement) (point : Point) (borrow : Borrow) :
    Continues borrow (borrow.endedBy settlement point) :=
  ((continues_markedIf _ _).trans (continues_endedIf _ _ _)).trans (continues_outlivedIf _ _ _)

theorem endedBy_continues_settled (tree : ScopeTree) (point : Point) (settlement : Settlement)
    (borrow : Borrow) :
    Continues (borrow.endedBy settlement point) (borrow.settled tree point settlement) := by
  rw [settled, Function.comp_apply, Function.comp_apply]
  refine Continues.trans ?_ (continues_endedIf _ _ _)
  unfold passedAlong
  split
  · exact continues_passedOn tree _ _ _
  · exact .refl _

theorem continues_settled (tree : ScopeTree) (point : Point) (settlement : Settlement)
    (borrow : Borrow) : Continues borrow (borrow.settled tree point settlement) :=
  (continues_endedBy settlement point borrow).trans
    (endedBy_continues_settled tree point settlement borrow)

variable {context : Context} {state : State} {point : Point} {before after : Builder}
  {resolution : Resolution} {rest : List Resolution} {borrow : Borrow}

theorem Sound.endedBy (sound : borrow.Sound context.tree before point)
    (leads : Builder.Leads context.tree point before rest) (settlement : Settlement) :
    (borrow.endedBy settlement point).Sound context.tree before point :=
  ((sound.markedIf _).endedIf leads _).outlivedIf leads _

/-- A borrow is sound after a statement has settled what it settles. -/
theorem Sound.settled (sound : borrow.Sound context.tree before point)
    (crossing : Builder.Crossing context.tree point before resolution after rest)
    (there : ∀ place, before.Live place →
      state.ownership.stateOf context.tree place ≠ .dropped) :
    (borrow.settled context.tree point
      (state.settlement context resolution.effect)).Sound context.tree after (point + 1) := by
  have left := sound.endedBy crossing.leads_before (state.settlement context resolution.effect)
  have active := isActive_endedBy_iff (state.settlement context resolution.effect) point borrow
  -- What is hidden was settled, so the places of an active borrow can still be named.
  have crossed : (borrow.endedBy (state.settlement context resolution.effect) point).Sound
      context.tree after (point + 1) := by
    refine left.cross crossing.transition ?_ ?_
    · intro isActive
      obtain ⟨wasActive, keeps, _⟩ := active.mp isActive
      rw [endedBy_holder]
      have live := sound.holder_live wasActive
      by_contra hidden
      have gone := State.settlement_of_hidden crossing (there _ live) live hidden
      rw [keeps] at gone
      cases gone.1
    · intro isActive live
      obtain ⟨_, _, spared⟩ := active.mp isActive
      rw [endedBy_referent] at live ⊢
      by_contra hidden
      have gone := State.settlement_of_hidden crossing (there _ live) live hidden
      rw [spared] at gone
      cases gone.2
  rw [Borrow.settled, Function.comp_apply, Function.comp_apply]
  refine Sound.endedIf ?_ crossing.leads_after _
  unfold passedAlong
  split
  · next source dest passed =>
      obtain ⟨target, use, passes, rfl, rfl, _⟩ := State.settlement_passed passed
      refine crossed.passedOn ?_ ?_
      · exact crossing.transition.target_live target (Effect.target?_of_passes? passes)
      · intro isActive keeps
        apply crossing.transition.references target use passes
        rw [← keeps]
        exact left.holder_reference isActive
  · exact crossed

/-- A new borrow is sound: the reference it is kept in can be named, and so can what it
refers to, unless the reference has taken over the name. -/
theorem sound_of_lent {kind : BorrowKind} {target : Target} {source : Use} {id : BorrowId}
    {origin : Span}
    (crossing : Builder.Crossing context.tree point before resolution after rest)
    (lends : resolution.effect = .borrow kind target source) (inside : source.escaped = false) :
    Sound context.tree after (point + 1)
      { id, referent := source.place, kind, created := point, holder := target.place,
        holderScope := context.tree.scopeOf target.place, origin } := by
  have transition := crossing.transition
  rw [lends] at transition
  have referent := transition.source_live source rfl inside
  refine {
    holderScope := rfl, created := Nat.lt_succ_self point, declared := ?_
    holder_live := fun _ => transition.target_live target rfl
    holder_reference := fun _ => transition.borrows kind target source rfl
    referent_live := fun _ => ?_, nonempty := nofun, ended := nofun
    within_holder := nofun, within_referent := nofun }
  · have wellFormed := crossing.leads_before.wellFormed
    obtain ⟨found, known, _⟩ := wellFormed.declared_of_live referent
    exact ⟨found, transition.declarations _ _ known,
      Nat.le_of_lt (wellFormed.earlier _ _ known)⟩
  · rcases transition.live_after source.place referent with
      stays | ⟨other, given, shadowed⟩ | ⟨scope, closes, _⟩
    · exact .inl stays
    · cases given
      cases target with
      | existing place => cases shadowed
      | fresh place hidden rebinds =>
          cases shadowed
          refine .inr ⟨resolution, kind, place, rebinds, crossing.listed, ?_⟩
          rw [lends, ← inside]
    · cases closes

end Borrow

namespace State

/-- What holds of the state and the scopes before the statement at a point. -/
structure Sound (tree : ScopeTree) (point : Point) (builder : Builder) (state : State) :
    Prop where
  consistent : state.ledger.Consistent
  borrows : ∀ borrow ∈ state.ledger.borrows, borrow.Sound tree builder point
  compatible : state.ledger.borrows.Pairwise Borrow.Compatible
  there : ∀ place, builder.Live place → state.ownership.stateOf tree place ≠ .dropped
  quiet : state.Quiet

theorem sound_empty (tree : ScopeTree) : Sound tree 0 {} {} where
  consistent := Ledger.consistent_empty
  borrows := fun _ membership => absurd membership List.not_mem_nil
  compatible := .nil
  there := by
    rintro place ⟨scope, isOpen, key, named⟩
    cases scope <;> simp [Builder.inScope?] at named
  quiet := fun _ => ⟨rfl, fun _ membership => absurd membership List.not_mem_nil⟩

section Keeps

variable {context : Context} {state : State} {point : Point} {before after : Builder}
  {resolution : Resolution} {rest : List Resolution}

theorem Sound.there_after
    (crossing : Builder.Crossing context.tree point before resolution after rest)
    (sound : Sound context.tree point before state) (place : PlaceId) (live : after.Live place) :
    (state.ownership.after context.tree resolution.effect).stateOf context.tree place ≠
      .dropped := by
  have transition := crossing.transition
  have wellFormed := crossing.leads_before.wellFormed
  rcases transition.live_before place live with
    ⟨old, notShadowed, notClosed⟩ | ⟨shadowed, rebinds, fresh⟩
  · refine Ownership.stateOf_after_ne_dropped _ (.inl (sound.there place old)) notShadowed ?_
    intro scope closes listed
    obtain ⟨found, known, _⟩ := wellFormed.declared_of_live old
    have inScope := (crossing.leads_before.mem_placesOf_iff known).mp listed
    exact notClosed scope closes ((wellFormed.listed scope place).mpr ⟨found, known, inScope⟩)
  · refine Ownership.stateOf_after_ne_dropped _ (.inr ⟨_, fresh, rfl⟩) ?_ ?_
    · -- A place that is shadowed was declared before, so it is not the new one.
      intro target given hides
      rw [fresh, Option.some.injEq] at given
      subst given
      cases hides
      obtain ⟨found, known, _⟩ :=
        wellFormed.declared_of_live (transition.shadowed_live _ _ _ fresh)
      rw [(transition.fresh _ _ _ fresh).1] at known
      cases known
    · intro scope closes
      generalize resolution.effect = effect at fresh closes
      cases effect <;> cases closes
      cases fresh

/-- Settling what a statement settles keeps the state sound. -/
theorem Sound.settle {ready : State}
    (crossing : Builder.Crossing context.tree point before resolution after rest)
    (sound : Sound context.tree point before state)
    (becomes : Becomes state
      (Borrow.settled context.tree point (state.settlement context resolution.effect))
      (Ownership.after context.tree resolution.effect) ready) :
    Sound context.tree (point + 1) after ready where
  consistent := becomes.consistent sound.consistent
  borrows := by
    rw [becomes.borrows sound.consistent]
    intro _ membership
    obtain ⟨borrow, listed, rfl⟩ := List.mem_map.mp membership
    exact (sound.borrows borrow listed).settled crossing sound.there
  compatible := by
    rw [becomes.borrows sound.consistent]
    exact Borrow.pairwise_compatible_map (Borrow.continues_settled _ _ _) sound.compatible
  there := by
    rw [becomes.ownership]
    exact sound.there_after crossing
  quiet := becomes.quiet sound.consistent sound.quiet

/-- Entering a borrow that meets no conflict keeps the state sound.  Whatever has ended did
so no later than the statement. -/
theorem Sound.lend {ready : State} {kind : BorrowKind} {target : Target} {source : Use}
    (crossing : Builder.Crossing context.tree point before resolution after rest)
    (sound : Sound context.tree (point + 1) after ready)
    (lends : resolution.effect = .borrow kind target source) (inside : source.escaped = false)
    (admitted : ready.ledger.conflict? source.place kind = none)
    (early : ∀ borrow ∈ ready.ledger.borrows, ∀ stop, borrow.retired = some stop → stop ≤ point) :
    Sound context.tree (point + 1) after { ready with
      ledger := ready.ledger.lend context.tree source.place kind target.place point
        resolution.loc } := by
  have consistent := sound.consistent
  have entered := consistent.lend_of_conflict?_eq_none context.tree target.place point
    resolution.loc admitted
  have free := (consistent.conflict?_eq_none_iff source.place kind).mp admitted
  refine { sound with
    consistent := consistent.lend context.tree target.place point resolution.loc admitted
    borrows := ?_, compatible := ?_, quiet := ?_ }
  · simp only [entered, List.mem_append, List.mem_singleton]
    rintro borrow (old | rfl)
    · exact sound.borrows borrow old
    · exact Borrow.sound_of_lent crossing lends inside
  · simp only [entered, List.pairwise_append, List.pairwise_singleton, List.mem_singleton]
    refine ⟨sound.compatible, trivial, ?_⟩
    rintro borrow membership _ rfl same
    cases ended : borrow.retired with
    | none =>
        have active := (Borrow.isActive_iff borrow).mpr ended
        exact .inl (free borrow membership active same).symm
    | some stop => exact .inr ⟨stop, rfl, early borrow membership stop ended⟩
  · intro silent
    refine ⟨(sound.quiet silent).1, ?_⟩
    simp only [entered, List.mem_append, List.mem_singleton]
    rintro borrow (old | rfl)
    · exact (sound.quiet silent).2 borrow old
    · rfl

/-- The transition of a statement keeps the state sound. -/
theorem Sound.step
    (crossing : Builder.Crossing context.tree point before resolution after rest)
    (sound : Sound context.tree point before state) :
    Sound context.tree (point + 1) after (state.step context resolution) := by
  rcases step_cases context state resolution with
    becomes | ⟨kind, target, source, ready, lends, inside, becomes, admitted, stepped⟩
  · rw [crossing.at_point] at becomes
    exact sound.settle crossing becomes
  · rw [crossing.at_point] at becomes stepped
    rw [stepped]
    refine (sound.settle crossing becomes).lend crossing lends inside admitted ?_
    rw [becomes.borrows sound.consistent]
    intro _ membership
    obtain ⟨borrow, listed, rfl⟩ := List.mem_map.mp membership
    rw [lends, Borrow.settled_eq_endedBy rfl rfl]
    exact ((sound.borrows borrow listed).endedBy crossing.leads_before _).ended

/-- Ending the borrows that are used no more keeps the state sound. -/
theorem Sound.retireDead {builder : Builder}
    (leads : Builder.Leads context.tree (point + 1) builder rest)
    (sound : Sound context.tree (point + 1) builder state) :
    Sound context.tree (point + 1) builder (state.retireDead context point) := by
  have becomes := retireDead_becomes context state point
  refine ⟨becomes.consistent sound.consistent, ?_, ?_, ?_,
    becomes.quiet sound.consistent sound.quiet⟩
  · rw [becomes.borrows sound.consistent]
    intro _ membership
    obtain ⟨borrow, listed, rfl⟩ := List.mem_map.mp membership
    exact (sound.borrows borrow listed).endedIf leads _
  · rw [becomes.borrows sound.consistent]
    exact Borrow.pairwise_compatible_map (Borrow.continues_endedIf _ _) sound.compatible
  · rw [becomes.ownership]
    exact sound.there

theorem Sound.advance
    (crossing : Builder.Crossing context.tree point before resolution after rest)
    (sound : Sound context.tree point before state) :
    Sound context.tree (point + 1) after (context.advance state resolution) := by
  unfold Context.advance
  rw [crossing.at_point]
  exact (sound.step crossing).retireDead crossing.leads_after

end Keeps

end State

namespace Context

/-- The ownership after a statement; borrows that end do not change it. -/
theorem advance_ownership (context : Context) (state : State) (resolution : Resolution) :
    (context.advance state resolution).ownership =
      state.ownership.after context.tree resolution.effect := by
  have retired := (State.retireDead_becomes context (state.step context resolution)
    resolution.point).ownership
  rw [advance, retired, id]
  exact State.step_ownership context state resolution

/-- The state before the statement at a point. -/
def stateBefore (context : Context) (point : Point) : State :=
  context.walk {} (context.tree.resolved.take point)

variable {context : Context}

/-- The state before every statement is sound, and so is the one after the last. -/
theorem sound_stateBefore (leads : Builder.Leads context.tree 0 {} context.tree.resolved)
    {point : Point} (inside : point ≤ context.tree.resolved.length) :
    ∃ builder, Builder.Leads context.tree point builder (context.tree.resolved.drop point) ∧
      State.Sound context.tree point builder (context.stateBefore point) := by
  apply Builder.Leads.reach context.advance (State.Sound context.tree) _ leads
    (State.sound_empty context.tree) inside
  intro point before resolution after rest state crossing sound
  exact sound.advance crossing

theorem stateBefore_succ {point : Point} {resolution : Resolution}
    (listed : context.tree.resolved[point]? = some resolution) :
    context.stateBefore (point + 1) = context.advance (context.stateBefore point) resolution := by
  simp only [stateBefore, walk]
  rw [List.take_add_one, listed, List.foldl_append]
  rfl

/-- Every statement is met in a sound state. -/
theorem crossing_at (leads : Builder.Leads context.tree 0 {} context.tree.resolved)
    {point : Point} {resolution : Resolution}
    (listed : context.tree.resolved[point]? = some resolution) :
    ∃ before after rest, Builder.Crossing context.tree point before resolution after rest ∧
      State.Sound context.tree point before (context.stateBefore point) := by
  obtain ⟨inside, isLast⟩ := List.getElem?_eq_some_iff.mp listed
  obtain ⟨before, leadsHere, sound⟩ := sound_stateBefore leads (Nat.le_of_lt inside)
  rw [List.drop_eq_getElem_cons inside, isLast] at leadsHere
  obtain ⟨after, at_point, transition, later⟩ := leadsHere.next
  exact ⟨before, after, _, ⟨leadsHere, later, at_point, listed, transition⟩, sound⟩

theorem run_becomes (context : Context) :
    State.Becomes (context.stateBefore context.tree.resolved.length)
      (Borrow.endedBy
        ((context.stateBefore context.tree.resolved.length).settlement context
          (.exit ScopeTree.rootId)) context.tree.unit.endPoint)
      (Ownership.after context.tree (.exit ScopeTree.rootId)) context.run := by
  have exits := State.exitScope_becomes context
    (context.stateBefore context.tree.resolved.length) ScopeTree.rootId
    context.tree.unit.endPoint {}
  rw [stateBefore, List.take_length] at exits ⊢
  refine exits.congr ?_
  intro _ borrow _
  exact Borrow.settled_eq_endedBy rfl rfl _ _ borrow

/-- After the last statement only the outermost scope is open, so the holder of an active borrow
is dropped with it. -/
theorem holder_remains (leads : Builder.Leads context.tree 0 {} context.tree.resolved)
    {borrow : Borrow}
    (listed : borrow ∈ (context.stateBefore context.tree.resolved.length).ledger.borrows)
    (active : borrow.isActive = true) :
    borrow.holder ∈ (context.stateBefore context.tree.resolved.length).ownership.remaining
      context.tree ScopeTree.rootId := by
  obtain ⟨builder, last, sound⟩ := sound_stateBefore leads (Nat.le_refl _)
  rw [List.drop_length] at last
  have live := (sound.borrows borrow listed).holder_live active
  simp only [Ownership.remaining, List.mem_filter, bne_iff_ne]
  exact ⟨last.mem_placesOf_root live, sound.there _ live⟩

/-- When the unit has ended, every borrow has ended and is sound. -/
theorem sound_run (leads : Builder.Leads context.tree 0 {} context.tree.resolved) :
    ∃ builder, Builder.Leads context.tree context.tree.unit.endPoint builder [] ∧
      (∀ borrow ∈ context.run.ledger.borrows,
        borrow.Sound context.tree builder context.tree.unit.endPoint ∧
          borrow.isActive = false) ∧
      context.run.ledger.borrows.Pairwise Borrow.Compatible := by
  obtain ⟨builder, last, sound⟩ := sound_stateBefore leads (Nat.le_refl _)
  have length : context.tree.resolved.length = context.tree.unit.endPoint := by
    simpa using leads.end_eq
  rw [List.drop_length] at last
  have becomes := run_becomes context
  have remains : ∀ borrow ∈ (context.stateBefore context.tree.resolved.length).ledger.borrows,
      borrow.isActive = true → borrow.holder ∈ _ := fun _ => holder_remains leads
  rw [becomes.borrows sound.consistent]
  rw [length] at last sound becomes remains ⊢
  refine ⟨builder, last, ?_, ?_⟩
  · intro _ membership
    obtain ⟨borrow, listed, rfl⟩ := List.mem_map.mp membership
    have before := sound.borrows borrow listed
    refine ⟨before.endedBy last _, ?_⟩
    by_contra stillActive
    rw [Bool.not_eq_false, Borrow.isActive_endedBy_iff] at stillActive
    obtain ⟨active, keeps, _⟩ := stillActive
    have gone := List.contains_iff_mem.mpr (remains borrow listed active)
    exact Bool.false_ne_true (keeps.symm.trans gone)
  · exact Borrow.pairwise_compatible_map (Borrow.continues_endedBy _ _) sound.compatible

end Context

end LoanCheck
