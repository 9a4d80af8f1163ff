import LoanCheck.Proofs.Check.Dangling
import LoanCheck.Proofs.Check.Transfer

/-!
# References that stay usable

Ownership and the ledger learn separately that a value is taken.  A place whose value may be
copied still has it afterwards, but the ledger passes its borrow on, or ends it, as for any
other place.  With extents that follow scopes this is the only way in which a reference
that has its value after a statement loses its borrow, as long as the statement is not about
that reference and what it refers to stays there.
-/

namespace LoanCheck

namespace Ownership

variable (tree : ScopeTree) {ownership : Ownership} {effect : Effect} {place : PlaceId}

/-- A place that has its value although that was taken has a value that may be copied. -/
theorem copied_of_taken {source : Use} (takes : effect.takes? = some source)
    (inside : source.escaped = false)
    (other : ∀ target, effect.target? = some target → target.place ≠ source.place)
    (owned : (ownership.after tree effect).stateOf tree source.place = .owned) :
    (ownership.record tree source.place).copy.isTrue = true ∧
      ownership.stateOf tree source.place = .owned := by
  apply (stateOf_taken_eq_owned_iff tree inside ownership).mp
  cases effect with
  | bind target operand mutable copy =>
      cases takes
      have different := (other target rfl).symm
      rw [after, stateOf_rebind, if_neg different, stateOf_makeRoom tree _ _ _ different] at owned
      split at owned
      · cases owned
      · exact owned
  | move target operand =>
      cases takes
      have different := (other target rfl).symm
      rw [after, stateOf_fill, if_neg different, stateOf_makeRoom tree _ _ _ different] at owned
      split at owned
      · cases owned
      · exact owned
  | consume operand =>
      cases takes
      exact owned
  | _ => cases takes

end Ownership

theorem Target.ends_cases {target : Target} {overwrites : Bool} {place : PlaceId}
    (ends : target.ends overwrites place = true) :
    target.place = place ∨ target.shadowed? = some place := by
  cases target with
  | existing kept => exact .inl (beq_iff_eq.mp (Bool.and_eq_true_iff.mp ends).2).symm
  | fresh new shadowed rebinds => exact .inr (beq_iff_eq.mp ends)

namespace State

variable {context : Context} {state : State} {effect : Effect} {place : PlaceId}

theorem settlement_marked (context : Context) (state : State) (effect : Effect) :
    (state.settlement context effect).marked = effect.source?.bind state.blames? := by
  cases effect <;> rfl

/-- The places that stop keeping borrows are given a value, hidden or left behind. -/
theorem settlement_ended_cases (ended : (state.settlement context effect).ended place = true) :
    (∃ target, effect.target? = some target ∧
      (target.place = place ∨ target.shadowed? = some place)) ∨
    ∃ scope, effect.closes? = some scope ∧
      place ∈ state.ownership.remaining context.tree scope := by
  cases effect with
  | exit scope => exact .inr ⟨scope, rfl, List.contains_iff_mem.mp ended⟩
  | bind target source mutable copy => exact .inl ⟨target, rfl, Target.ends_cases ended⟩
  | declare target => exact .inl ⟨target, rfl, .inr (Target.drops_iff.mp ended)⟩
  | move target source => exact .inl ⟨target, rfl, Target.ends_cases ended⟩
  | borrow kind target source => exact .inl ⟨target, rfl, Target.ends_cases ended⟩
  | _ => cases ended

theorem settlement_dropped_cases
    (dropped : (state.settlement context effect).dropped place = true) :
    (∃ target, effect.target? = some target ∧ target.shadowed? = some place) ∨
    ∃ scope, effect.closes? = some scope ∧
      place ∈ state.ownership.remaining context.tree scope := by
  cases effect with
  | exit scope => exact .inr ⟨scope, rfl, List.contains_iff_mem.mp dropped⟩
  | bind target source mutable copy => exact .inl ⟨target, rfl, Target.drops_iff.mp dropped⟩
  | declare target => exact .inl ⟨target, rfl, Target.drops_iff.mp dropped⟩
  | move target source => exact .inl ⟨target, rfl, Target.drops_iff.mp dropped⟩
  | borrow kind target source => exact .inl ⟨target, rfl, Target.drops_iff.mp dropped⟩
  | _ => cases dropped

theorem settlement_spent (spent : (state.settlement context effect).spent = some place) :
    ∃ source, effect = .consume source ∧ source.escaped = false ∧ source.place = place := by
  cases effect with
  | consume source =>
      cases escaped : source.escaped with
      | true => simp [settlement, escaped] at spent
      | false =>
          simp only [settlement, escaped, Bool.false_eq_true, if_false, Option.some.injEq] at spent
          exact ⟨source, rfl, escaped, spent⟩
  | _ => cases spent

/-- A place that has its value after a statement which is not about it goes on keeping its
borrows. -/
theorem goes_on_keeping (context : Context) (state : State)
    (notTarget : ∀ target, effect.target? = some target → target.place ≠ place)
    (owned : (state.ownership.after context.tree effect).stateOf context.tree place = .owned) :
    (state.settlement context effect).ended place = false := by
  by_contra ended
  rw [Bool.not_eq_false] at ended
  rcases settlement_ended_cases ended with
    ⟨target, given, isTarget | shadowed⟩ | ⟨scope, closes, remains⟩
  · exact notTarget target given isTarget
  · rw [Ownership.stateOf_after_hidden _ given shadowed (notTarget target given).symm] at owned
    cases owned
  · rw [Ownership.stateOf_after_closed _ closes (List.mem_filter.mp remains).1] at owned
    cases owned

end State

namespace Borrow

variable {settlement : Settlement} {borrow : Borrow} {point : Point}

theorem endedBy_of_spared (unmarked : settlement.marked ≠ some borrow.id)
    (keeps : settlement.ended borrow.holder = false)
    (there : settlement.dropped borrow.referent = false) :
    borrow.endedBy settlement point = borrow := by
  simp [endedBy, endedIf, outlivedIf, markedIf, unmarked, keeps, there]

/-- A borrow that nothing is done about at the point of a statement is the same after it, if its
holder neither passes it on nor is used up. -/
theorem settled_of_spared (tree : ScopeTree)
    (spared : borrow.endedBy settlement point = borrow)
    (stays : ∀ dest, settlement.passed ≠ some (borrow.holder, dest))
    (unspent : settlement.spent ≠ some borrow.holder) :
    borrow.settled tree point settlement = borrow := by
  have same : borrow.passedAlong tree settlement.passed = borrow := by
    unfold passedAlong
    split
    · next source dest passed =>
        have other : borrow.holder ≠ source := by
          rintro rfl
          exact stays dest passed
        simp [passedOn, other]
    · rfl
  rw [settled, Function.comp_apply, Function.comp_apply, spared, same]
  simp [endedIf, unspent]

theorem settled_of_spent (tree : ScopeTree)
    (spared : borrow.endedBy settlement point = borrow) (active : borrow.isActive = true)
    (kept : settlement.passed = none) (spent : settlement.spent = some borrow.holder) :
    borrow.settled tree point settlement = { borrow with retired := some (point + 1) } := by
  rw [settled, Function.comp_apply, Function.comp_apply, spared, kept]
  simp [passedAlong, endedIf, active, spent]

end Borrow

namespace CodeUnit.Passage

variable {unit : CodeUnit} {context : Context} {point : Point} {statement : Statement}
  {before after : Builder} {resolution : Resolution} {rest : List Resolution} {state : State}
  {borrow : Borrow}
  (passage : Passage unit context.tree point statement before resolution after rest)
  (sound : State.Sound context.tree point before state)

include passage sound

/-- What a statement drops was there before it. -/
theorem not_dropped {place : PlaceId}
    (there : (state.ownership.after context.tree resolution.effect).stateOf context.tree place =
        .dropped → state.ownership.stateOf context.tree place = .dropped) :
    (state.settlement context resolution.effect).dropped place = false := by
  have transition := passage.crossing.transition
  by_contra dropped
  rw [Bool.not_eq_false] at dropped
  rcases State.settlement_dropped_cases dropped with
    ⟨target, given, shadowed⟩ | ⟨scope, closes, remains⟩
  · cases target with
    | existing kept => cases shadowed
    | fresh new hidden rebinds =>
        cases shadowed
        have live := transition.shadowed_live new place rebinds given
        have other : place ≠ new := by
          rintro rfl
          obtain ⟨found, known, _⟩ :=
            passage.crossing.leads_before.wellFormed.declared_of_live live
          rw [(transition.fresh place _ rebinds given).1] at known
          cases known
        exact sound.there place live (there (Ownership.stateOf_after_hidden _ given rfl other))
  · obtain ⟨listed, isThere⟩ := List.mem_filter.mp remains
    rw [there (Ownership.stateOf_after_closed _ closes listed)] at isThere
    cases isThere

variable (membership : borrow ∈ state.ledger.borrows) (active : borrow.isActive = true)

include membership active

/-- Only a borrow that has ended is blamed for an escaped use. -/
theorem not_blamed : (state.settlement context resolution.effect).marked ≠ some borrow.id := by
  rw [State.settlement_marked]
  intro marked
  obtain ⟨use, source, blamed⟩ := Option.bind_eq_some_iff.mp marked
  simp only [State.blames?] at blamed
  split at blamed
  · next reported =>
      have escaped := (Bool.and_eq_true_iff.mp (Bool.and_eq_true_iff.mp reported).1).1
      obtain ⟨last, found, same⟩ := Option.map_eq_some_iff.mp blamed
      obtain ⟨listed, isHolder⟩ := List.mem_filter.mp (List.mem_of_getLast? found)
      have isBorrow := sound.consistent.eq_of_id membership listed same
      have idle := passage.idle_of_escaped sound source escaped last listed
        (beq_iff_eq.mp isHolder)
      rw [isBorrow, active] at idle
      cases idle
  · cases blamed

/-- A holder that can be named has not escaped. -/
theorem inside_of_holder {use : Use} (source : resolution.effect.source? = some use)
    (isHolder : use.place = borrow.holder) : use.escaped = false := by
  have live := (sound.borrows borrow membership).holder_live active
  rw [← isHolder] at live
  by_contra escaped
  rw [Bool.not_eq_false] at escaped
  exact (passage.escaped_source source escaped).2 live

theorem not_passed_of_untaken
    (untaken : ∀ source, resolution.effect.takes? = some source → source.escaped = false →
      source.place ≠ borrow.holder) (dest : PlaceId) :
    (state.settlement context resolution.effect).passed ≠ some (borrow.holder, dest) := by
  intro passed
  obtain ⟨target, use, passes, isHolder, _⟩ := State.settlement_passed passed
  have takes : resolution.effect.takes? = some use := by
    rcases Effect.passes?_cases passes with ⟨mutable, copy, binds⟩ | moves
    · rw [binds]
      rfl
    · rw [moves]
      rfl
  have inside := passage.inside_of_holder sound membership active
    (Effect.source?_of_takes? takes) isHolder
  exact untaken use takes inside isHolder

variable
  (notTarget : ∀ target, resolution.effect.target? = some target → target.place ≠ borrow.holder)
  (owned : (state.ownership.after context.tree resolution.effect).stateOf context.tree
    borrow.holder = .owned)
  (there : (state.ownership.after context.tree resolution.effect).stateOf context.tree
    borrow.referent = .dropped → state.ownership.stateOf context.tree borrow.referent = .dropped)

include notTarget owned there

theorem spared : borrow.endedBy (state.settlement context resolution.effect) point = borrow :=
  Borrow.endedBy_of_spared (passage.not_blamed sound membership active)
    (State.goes_on_keeping context state notTarget owned) (passage.not_dropped sound there)

theorem step_keeps_of_untaken
    (untaken : ∀ source, resolution.effect.takes? = some source → source.escaped = false →
      source.place ≠ borrow.holder) :
    (state.step context resolution).ledger.borrows[borrow.id]? = some borrow := by
  rw [sound.settles passage.crossing membership]
  apply congrArg some
  apply Borrow.settled_of_spared context.tree
    (passage.spared sound membership active notTarget owned there)
  · exact passage.not_passed_of_untaken sound membership active untaken
  · intro spent
    obtain ⟨source, consumes, inside, isHolder⟩ := State.settlement_spent spent
    apply untaken source _ inside isHolder
    rw [consumes]
    rfl

theorem step_passes {target : Target} {source : Use}
    (passes : resolution.effect.passes? = some (target, source))
    (inside : source.escaped = false) (isHolder : source.place = borrow.holder) :
    (state.step context resolution).ledger.borrows[borrow.id]? = some { borrow with
      holder := target.place, holderScope := context.tree.scopeOf target.place } := by
  have goesOn := State.goes_on_keeping context state notTarget owned
  rw [← isHolder] at goesOn
  apply sound.kept_by_target passage.crossing membership active isHolder.symm passes inside goesOn
  intro shadowed
  have spares := passage.not_dropped sound there
  rw [(State.settlement_of_shadowed (Effect.target?_of_passes? passes) shadowed).2] at spares
  cases spares

theorem step_spends {source : Use} (consumes : resolution.effect = .consume source)
    (inside : source.escaped = false) (isHolder : source.place = borrow.holder) :
    (state.step context resolution).ledger.borrows[borrow.id]? =
      some { borrow with retired := some (point + 1) } := by
  rw [sound.settles passage.crossing membership]
  apply congrArg some
  apply Borrow.settled_of_spent context.tree
    (passage.spared sound membership active notTarget owned there) active
  · rw [consumes]
    rfl
  · rw [consumes]
    simp [State.settlement, inside, isHolder]

end CodeUnit.Passage

theorem Context.advance_of_lexical {context : Context} (lexical : context.liveness = none)
    (state : State) (resolution : Resolution) :
    context.advance state resolution = state.step context resolution := by
  simp [advance, State.retireDead, lexical]

/-- A reference that has its value after a statement with another target, and whose referent the
statement does not drop.  Unless the statement takes the value of the reference, it leaves the
borrow as it is.  If it does take the value, then that may be copied, and the borrow goes to the
target all the same, or ends with the statement where there is none. -/
theorem usable_reference_keeps_borrow {unit : CodeUnit} {config : Config} {tree : ScopeTree}
    (built : unit.scopeTree = .ok tree) (lexical : config.precise = false) {point : Point}
    {resolution : Resolution} {place : PlaceId} {borrow : Borrow}
    (listed : tree.resolved[point]? = some resolution)
    (notTarget : ∀ target, resolution.effect.target? = some target → target.place ≠ place)
    (owned : ((Context.ofTree config tree).stateBefore (point + 1)).ownership.stateOf tree place =
      .owned)
    (membership : borrow ∈ ((Context.ofTree config tree).stateBefore point).ledger.borrows)
    (active : borrow.isActive = true) (keeps : borrow.holder = place)
    (there : ((Context.ofTree config tree).stateBefore (point + 1)).ownership.stateOf tree
        borrow.referent = .dropped →
      ((Context.ofTree config tree).stateBefore point).ownership.stateOf tree borrow.referent =
        .dropped) :
    let before := (Context.ofTree config tree).stateBefore point
    let after := (Context.ofTree config tree).stateBefore (point + 1)
    ((∀ source, resolution.effect.takes? = some source → source.escaped = false →
        source.place ≠ place) → after.ledger.borrows[borrow.id]? = some borrow) ∧
    ∀ source, resolution.effect.takes? = some source → source.escaped = false →
      source.place = place →
      (before.ownership.record tree place).copy.isTrue = true ∧
      (∀ target, resolution.effect.passes? = some (target, source) →
        after.ledger.borrows[borrow.id]? = some { borrow with
          holder := target.place, holderScope := tree.scopeOf target.place }) ∧
      (resolution.effect = .consume source →
        after.ledger.borrows[borrow.id]? = some { borrow with retired := some (point + 1) }) := by
  intro before after
  have narrow : (Context.ofTree config tree).liveness = none := by
    simp [Context.ofTree, lexical]
  have steps : after = before.step (Context.ofTree config tree) resolution := by
    unfold after
    rw [Context.stateBefore_succ listed, Context.advance_of_lexical narrow]
  obtain ⟨statement, builder, next, rest, known⟩ := CodeUnit.passage_at built listed
  have passage : CodeUnit.Passage unit (Context.ofTree config tree).tree point statement builder
      resolution next rest := known
  have bound := Nat.le_of_lt (List.getElem?_eq_some_iff.mp passage.listed).1
  have sound := CodeUnit.sound_builderAt built config bound passage.reached
  subst keeps
  change after.ownership.stateOf tree borrow.holder = .owned at owned
  change after.ownership.stateOf tree borrow.referent = .dropped → _ at there
  rw [steps, State.step_ownership] at owned there
  rw [steps]
  refine ⟨?_, ?_⟩
  · exact passage.step_keeps_of_untaken sound membership active notTarget owned there
  · intro source takes inside isHolder
    refine ⟨?_, ?_, ?_⟩
    · rw [← isHolder] at notTarget owned ⊢
      exact (Ownership.copied_of_taken tree takes inside notTarget owned).1
    · intro target passes
      exact passage.step_passes sound membership active notTarget owned there passes inside
        isHolder
    · intro consumes
      exact passage.step_spends sound membership active notTarget owned there consumes inside
        isHolder

def consumingCopy : CodeUnit := movingUnit true (.consume (.str "r"))

/-- A reference that may be copied is consumed.  It has its value before and after, but its
borrow ends, so that what it refers to may be written before it is read. -/
theorem consumed_copy_loses_borrow :
    ∃ tree resolution, consumingCopy.scopeTree = .ok tree ∧
      tree.resolved[3]? = some resolution ∧ resolution.effect = .consume ⟨1, false⟩ ∧
      let before := (Context.ofTree {} tree).stateBefore 3
      let after := (Context.ofTree {} tree).stateBefore 4
      before.ledger.borrows = [movingBorrow] ∧
        before.ownership.stateOf tree 1 = .owned ∧ after.ownership.stateOf tree 1 = .owned ∧
        after.ledger.borrows[0]? = some { movingBorrow with retired := some 4 } ∧
        (consumingCopy.analyse {} false).toOption.map UnitResult.accepted = some true := by
  have known : (consumingCopy.scopeTree.toOption.map fun tree =>
      let before := (Context.ofTree {} tree).stateBefore 3
      let after := (Context.ofTree {} tree).stateBefore 4
      ((tree.resolved[3]?).map fun resolution =>
          (resolution.effect.takes?, resolution.effect.target?),
        before.ledger.borrows, before.ownership.stateOf tree 1, after.ownership.stateOf tree 1,
        after.ownership.stateOf tree 0)) =
      some (some (some ⟨1, false⟩, none), [movingBorrow], .owned, .owned, .owned) := by
    decide
  obtain ⟨tree, found, facts⟩ := Option.map_eq_some_iff.mp known
  have built := toOption_eq_some_iff.mp found
  simp only [Prod.mk.injEq] at facts
  obtain ⟨resolves, borrows, ownedBefore, owned, there⟩ := facts
  obtain ⟨resolution, listed, effect⟩ := Option.map_eq_some_iff.mp resolves
  obtain ⟨takes, targetless⟩ := Prod.mk.inj effect
  have consumes : resolution.effect = .consume ⟨1, false⟩ := by
    generalize resolution.effect = effect at takes targetless
    cases effect with
    | consume source =>
        cases takes
        rfl
    | bind | move => cases targetless
    | _ => cases takes
  have membership : movingBorrow ∈ ((Context.ofTree {} tree).stateBefore 3).ledger.borrows := by
    rw [borrows]
    exact List.mem_singleton_self _
  have kept := usable_reference_keeps_borrow built rfl listed (by simp [targetless]) owned
    membership rfl rfl (by
      intro dropped
      cases there.symm.trans dropped)
  refine ⟨tree, resolution, built, listed, consumes, borrows, ownedBefore, owned, ?_, by decide⟩
  exact (kept.2 ⟨1, false⟩ takes rfl rfl).2.2 consumes

end LoanCheck
