import LoanCheck.Proofs.Check.Extents

/-!
# Who keeps the active borrows

Three things are told of a place by three parts of the analysis: what it holds by the scope tree,
whether it has its value by ownership, and what it keeps by the ledger.  After every statement
they fit together: an active borrow is kept by a reference of an open scope that has its value,
and a reference keeps one active borrow at most.
-/

namespace LoanCheck

/-- A scope that has been entered by a point and ends after it. -/
def ScopeTree.OpenAfter (tree : ScopeTree) (point : Point) (scope : ScopeId) : Prop :=
  ∃ found, tree.scopes[scope]? = some found ∧ found.enter ≤ point ∧ point < tree.exitPoint scope

theorem Builder.Leads.openAfter {tree : ScopeTree} {point : Point} {builder : Builder}
    {rest : List Resolution} {place : PlaceId}
    (leads : Builder.Leads tree (point + 1) builder rest) (live : builder.Live place) :
    tree.OpenAfter point (tree.scopeOf place) := by
  obtain ⟨found, known, isOpen, _⟩ := leads.wellFormed.declared_of_live live
  obtain ⟨start, started, early⟩ := leads.wellFormed.started found.scope isOpen
  obtain ⟨scope, listed, rfl⟩ := leads.enter_of_started started
  rw [leads.scopeOf_eq known]
  refine ⟨scope, listed, ?_, leads.le_exitPoint isOpen⟩
  rcases early with first | earlier
  · rw [first]
    exact Nat.zero_le point
  · exact Nat.le_of_lt_succ earlier

namespace Ownership

/-- A place that a statement gives a value has it afterwards. -/
theorem stateOf_after_given (tree : ScopeTree) (ownership : Ownership) {effect : Effect}
    {target : Target} (given : effect.target? = some target) (value : effect ≠ .declare target) :
    (ownership.after tree effect).stateOf tree target.place = .owned := by
  cases effect with
  | bind other source mutable copy =>
      cases given
      rw [after, stateOf_rebind, if_pos rfl]
  | declare other =>
      cases given
      exact absurd rfl value
  | move other source =>
      cases given
      rw [after, stateOf_fill, if_pos rfl]
  | borrow kind other source =>
      cases given
      rw [after, stateOf_fill, if_pos rfl]
  | _ => cases given

end Ownership

/-- What stays active in a statement was active, and either goes with a reference that is passed
on or stays with a holder that is not spent. -/
theorem Borrow.settled_active_cases {tree : ScopeTree} {point : Point} {settlement : Settlement}
    {borrow : Borrow} (active : (borrow.settled tree point settlement).isActive = true) :
    borrow.isActive = true ∧ settlement.ended borrow.holder = false ∧
      ((∃ dest, settlement.passed = some (borrow.holder, dest) ∧
          (borrow.settled tree point settlement).holder = dest) ∨
        ((∀ dest, settlement.passed ≠ some (borrow.holder, dest)) ∧
          settlement.spent ≠ some borrow.holder ∧
          (borrow.settled tree point settlement).holder = borrow.holder)) := by
  have endedActive := (endedBy_continues_settled tree point settlement borrow).active_before active
  obtain ⟨wasActive, keeps, _⟩ := (isActive_endedBy_iff settlement point borrow).mp endedActive
  refine ⟨wasActive, keeps, ?_⟩
  rw [settled, Function.comp_apply, Function.comp_apply, isActive_endedIf] at active
  rw [settled, Function.comp_apply, Function.comp_apply, endedIf_holder]
  have unspent : settlement.spent ≠
      some ((borrow.endedBy settlement point).passedAlong tree settlement.passed).holder := by
    simpa using (Bool.and_eq_true_iff.mp active).2
  cases passed : settlement.passed with
  | none =>
      rw [passed] at unspent
      have holder := endedBy_holder settlement point borrow
      refine .inr ⟨fun dest absent => ?_, holder ▸ unspent, holder⟩
      cases absent
  | some pair =>
      obtain ⟨source, dest⟩ := pair
      rw [passed] at unspent
      simp only [passedAlong] at unspent ⊢
      by_cases moves : borrow.holder = source
      · refine .inl ⟨dest, by rw [moves], ?_⟩
        simp [passedOn, endedActive, endedBy_holder, moves]
      · have stays : (borrow.endedBy settlement point).passedOn tree source dest =
            borrow.endedBy settlement point := by
          simp [passedOn, endedBy_holder, moves]
        rw [stays, endedBy_holder] at unspent ⊢
        refine .inr ⟨?_, unspent, rfl⟩
        rintro other ⟨⟩
        exact moves rfl

namespace State

/-- The holders of active borrows have their values, and each keeps one of them. -/
structure Kept (tree : ScopeTree) (state : State) : Prop where
  owned : ∀ borrow ∈ state.ledger.borrows, borrow.isActive = true →
    state.ownership.stateOf tree borrow.holder = .owned
  alone : state.ledger.borrows.Pairwise fun borrow other =>
    borrow.isActive = true → other.isActive = true → borrow.holder ≠ other.holder

theorem kept_empty (tree : ScopeTree) : Kept tree {} where
  owned := fun _ membership => absurd membership List.not_mem_nil
  alone := .nil

namespace Kept

variable {context : Context} {state : State} {point : Point} {before after : Builder}
  {resolution : Resolution} {rest : List Resolution} {borrow : Borrow}
  (crossing : Builder.Crossing context.tree point before resolution after rest)
  (sound : Sound context.tree point before state)
  (membership : borrow ∈ state.ledger.borrows) (active : borrow.isActive = true)

include crossing sound membership active

/-- A holder was there before the statement, so it is not declared by it. -/
theorem holder_ne_fresh {target : Target} (given : resolution.effect.target? = some target)
    (declares : target.declares = true) : borrow.holder ≠ target.place := by
  intro same
  cases target with
  | existing place => cases declares
  | fresh place shadowed rebinds =>
      obtain ⟨found, known, _⟩ := crossing.leads_before.wellFormed.declared_of_live
        ((sound.borrows borrow membership).holder_live active)
      rw [same] at known
      cases known.symm.trans (crossing.transition.fresh place shadowed rebinds given).1

variable (kept : Kept context.tree state)

include kept

/-- A place that is given a value lets go of its borrows first, or had nothing to keep them in.
The one exception is a value that is bound back to its place. -/
theorem holder_ne_target {target : Target} (given : resolution.effect.target? = some target)
    (other : ∀ source, resolution.effect.takes? = some source → source.place ≠ target.place)
    (keeps : (state.settlement context resolution.effect).ended borrow.holder = false) :
    borrow.holder ≠ target.place := by
  cases target with
  | fresh place shadowed rebinds => exact holder_ne_fresh crossing sound membership active given rfl
  | existing place =>
      rintro rfl
      have declares := crossing.transition.declares (.existing borrow.holder)
      have owned := kept.owned borrow membership active
      generalize resolution.effect = effect at given other keeps declares
      cases effect with
      | bind target source mutable copy =>
          cases given
          have untaken : Ownership.stateOf
              (source.elim state.ownership (state.ownership.taken context.tree)) context.tree
              borrow.holder = .owned := by
            cases source with
            | none => exact owned
            | some use =>
                refine (Ownership.stateOf_taken_of_copied context.tree ?_).trans owned
                intro same _
                exact absurd same (other use rfl)
          simp [settlement, Target.ends, Target.place, untaken] at keeps
      | declare target =>
          cases given
          cases declares rfl
      | move target source =>
          cases given
          simp [settlement, Target.ends] at keeps
      | borrow kind target source =>
          cases given
          simp [settlement, Target.ends] at keeps
      | _ => cases given

/-- Where references are passed on, the target keeps nothing yet. -/
theorem holder_ne_dest {source dest : PlaceId}
    (passed : (state.settlement context resolution.effect).passed = some (source, dest))
    (keeps : (state.settlement context resolution.effect).ended borrow.holder = false) :
    borrow.holder ≠ dest := by
  obtain ⟨target, use, passes, rfl, rfl, different⟩ := settlement_passed passed
  apply holder_ne_target crossing sound membership active kept
    (Effect.target?_of_passes? passes) ?_ keeps
  intro taken takes
  rcases Effect.passes?_cases passes with ⟨mutable, copy, binds⟩ | moves
  · rw [binds] at takes
    cases takes
    exact different
  · rw [moves] at takes
    cases takes
    exact different

omit kept in
/-- Taking the value of a holder takes the borrow as well: it is passed on, or spent. -/
theorem not_taken_of_stays
    (other : ∀ target, resolution.effect.target? = some target → target.place ≠ borrow.holder)
    (stays : ∀ dest, (state.settlement context resolution.effect).passed ≠
      some (borrow.holder, dest))
    (unspent : (state.settlement context resolution.effect).spent ≠ some borrow.holder)
    {source : Use} (takes : resolution.effect.takes? = some source)
    (inside : source.escaped = false) : source.place ≠ borrow.holder := by
  intro same
  have reference := crossing.leads_before.holdsReference
    ((sound.borrows borrow membership).holder_reference active)
  have passedOn : ∀ target, resolution.effect.passes? = some (target, source) → False := by
    intro target passes
    have different := other target (Effect.target?_of_passes? passes)
    apply stays target.place
    rw [(settlement_of_passes context state passes inside).2.2.2, ← same]
    simp [ScopeTree.passes?, inside, same, reference, Ne.symm different]
  generalize resolution.effect = effect at takes passedOn unspent
  cases effect with
  | bind target operand mutable copy =>
      cases takes
      exact passedOn target rfl
  | move target operand =>
      cases takes
      exact passedOn target rfl
  | consume operand =>
      cases takes
      apply unspent
      simp [settlement, inside, same]
  | _ => cases takes

/-- A holder that goes on keeping its borrow in a statement has its value afterwards. -/
theorem owned_after
    (stays : ∀ dest, (state.settlement context resolution.effect).passed ≠
      some (borrow.holder, dest))
    (unspent : (state.settlement context resolution.effect).spent ≠ some borrow.holder)
    (keeps : (state.settlement context resolution.effect).ended borrow.holder = false) :
    (state.ownership.after context.tree resolution.effect).stateOf context.tree borrow.holder =
      .owned := by
  have owned := kept.owned borrow membership active
  by_cases isTarget : ∃ target, resolution.effect.target? = some target ∧
      target.place = borrow.holder
  · obtain ⟨target, given, same⟩ := isTarget
    rw [← same]
    apply Ownership.stateOf_after_given context.tree _ given
    intro declares
    exact holder_ne_fresh crossing sound membership active given
      (crossing.transition.declares target declares) same.symm
  · have changed := Ownership.changed_after context.tree resolution.effect state.ownership
      borrow.holder
    generalize (state.ownership.after context.tree resolution.effect).stateOf context.tree
      borrow.holder = later at changed
    cases changed with
    | given gives same => rfl
    | declared declares same =>
        rw [declares] at isTarget
        exact absurd ⟨_, rfl, same⟩ isTarget
    | hidden gives shadowed =>
        rw [(settlement_of_shadowed gives shadowed).1] at keeps
        cases keeps
    | closed closes listed =>
        have remains : borrow.holder ∈ state.ownership.remaining context.tree _ :=
          List.mem_filter.mpr ⟨listed, by simp [owned]⟩
        rw [(settlement_of_closed closes remains).1] at keeps
        cases keeps
    | taken takes same inside moves =>
        -- The value goes to the target together with the borrow, or to a callee.
        refine absurd same (not_taken_of_stays crossing sound membership active ?_ stays unspent
          takes inside)
        exact fun target gives same => isTarget ⟨target, gives, same⟩
    | kept others => exact owned

omit crossing sound membership active kept

/-- The target of a passed reference has its value. -/
theorem owned_dest {source dest : PlaceId}
    (passed : (state.settlement context resolution.effect).passed = some (source, dest)) :
    (state.ownership.after context.tree resolution.effect).stateOf context.tree dest =
      .owned := by
  obtain ⟨target, use, passes, _, rfl, _⟩ := settlement_passed passed
  apply Ownership.stateOf_after_given context.tree _ (Effect.target?_of_passes? passes)
  intro declares
  rw [declares] at passes
  cases passes

end Kept

section Keeps

variable {context : Context} {state : State} {point : Point} {before after : Builder}
  {resolution : Resolution} {rest : List Resolution}

theorem Kept.owned_step
    (crossing : Builder.Crossing context.tree point before resolution after rest)
    (sound : Sound context.tree point before state) (kept : Kept context.tree state)
    {next : Borrow} (membership : next ∈ (state.step context resolution).ledger.borrows)
    (active : next.isActive = true) :
    (state.step context resolution).ownership.stateOf context.tree next.holder = .owned := by
  rw [step_ownership]
  rcases mem_step context sound.consistent membership with
    ⟨borrow, listed, rfl⟩ | ⟨kind, target, place, id, lends, rfl⟩
  · obtain ⟨wasActive, keeps, ⟨dest, passed, holder⟩ | ⟨stays, unspent, holder⟩⟩ :=
      Borrow.settled_active_cases active
    · rw [holder]
      exact owned_dest passed
    · rw [holder]
      exact kept.owned_after crossing sound listed wasActive stays unspent keeps
  · rw [lends]
    exact Ownership.stateOf_after_given context.tree _ rfl nofun

/-- Settling what a statement settles leaves every active borrow with a holder of its own. -/
theorem Kept.alone_settled
    (crossing : Builder.Crossing context.tree point before resolution after rest)
    (sound : Sound context.tree point before state) (kept : Kept context.tree state) :
    (state.ledger.borrows.map (Borrow.settled context.tree point
      (state.settlement context resolution.effect))).Pairwise fun borrow other =>
        borrow.isActive = true → other.isActive = true → borrow.holder ≠ other.holder := by
  rw [List.pairwise_map]
  refine kept.alone.imp_of_mem ?_
  intro first second firstListed secondListed different firstActive secondActive
  obtain ⟨firstWas, firstKeeps, firstGoes⟩ := Borrow.settled_active_cases firstActive
  obtain ⟨secondWas, secondKeeps, secondGoes⟩ := Borrow.settled_active_cases secondActive
  -- Only one place passes its reference on, and to a place that keeps nothing.
  rcases firstGoes with ⟨dest, passed, holder⟩ | ⟨_, _, holder⟩
  · rcases secondGoes with ⟨other, alsoPassed, _⟩ | ⟨_, _, secondHolder⟩
    · rw [passed, Option.some.injEq, Prod.mk.injEq] at alsoPassed
      exact absurd alsoPassed.1 (different firstWas secondWas)
    · rw [holder, secondHolder]
      exact (kept.holder_ne_dest crossing sound secondListed secondWas passed secondKeeps).symm
  · rw [holder]
    rcases secondGoes with ⟨dest, passed, secondHolder⟩ | ⟨_, _, secondHolder⟩
    · rw [secondHolder]
      exact kept.holder_ne_dest crossing sound firstListed firstWas passed firstKeeps
    · rw [secondHolder]
      exact different firstWas secondWas

theorem Kept.alone_step
    (crossing : Builder.Crossing context.tree point before resolution after rest)
    (sound : Sound context.tree point before state) (kept : Kept context.tree state) :
    (state.step context resolution).ledger.borrows.Pairwise fun borrow other =>
      borrow.isActive = true → other.isActive = true → borrow.holder ≠ other.holder := by
  have settled := kept.alone_settled crossing sound
  rw [← crossing.at_point] at settled
  rcases step_cases context state resolution with
    becomes | ⟨kind, target, source, ready, lends, inside, becomes, admitted, stepped⟩
  · rw [becomes.borrows sound.consistent]
    exact settled
  · have entered := (becomes.consistent sound.consistent).lend_of_conflict?_eq_none context.tree
      target.place resolution.point resolution.loc admitted
    rw [stepped]
    simp only [entered, becomes.borrows sound.consistent, List.pairwise_append,
      List.pairwise_singleton, List.mem_singleton]
    refine ⟨settled, trivial, ?_⟩
    rintro next membership _ rfl active _
    obtain ⟨borrow, listed, rfl⟩ := List.mem_map.mp membership
    obtain ⟨wasActive, keeps, ⟨dest, passed, _⟩ | ⟨_, _, holder⟩⟩ :=
      Borrow.settled_active_cases active
    · rw [lends] at passed
      cases passed
    · rw [holder]
      apply kept.holder_ne_target crossing sound listed wasActive _ _ keeps
      · rw [lends]
        rfl
      · intro taken takes
        rw [lends] at takes
        cases takes

theorem Kept.step
    (crossing : Builder.Crossing context.tree point before resolution after rest)
    (sound : Sound context.tree point before state) (kept : Kept context.tree state) :
    Kept context.tree (state.step context resolution) where
  owned _ := kept.owned_step crossing sound
  alone := kept.alone_step crossing sound

theorem Kept.advance
    (crossing : Builder.Crossing context.tree point before resolution after rest)
    (sound : Sound context.tree point before state) (kept : Kept context.tree state) :
    Kept context.tree (context.advance state resolution) := by
  have becomes := retireDead_becomes context (state.step context resolution) resolution.point
  have borrows := becomes.borrows (sound.step crossing).consistent
  have stepped := kept.step crossing sound
  have active := fun chosen borrow =>
    (Borrow.continues_endedIf chosen (resolution.point + 1) borrow).active_before
  unfold Context.advance
  constructor
  · rw [borrows, becomes.ownership]
    intro _ membership stillActive
    obtain ⟨borrow, listed, rfl⟩ := List.mem_map.mp membership
    rw [Borrow.endedIf_holder]
    exact stepped.owned borrow listed (active _ borrow stillActive)
  · rw [borrows, List.pairwise_map]
    refine stepped.alone.imp ?_
    intro first second different firstActive secondActive
    rw [Borrow.endedIf_holder, Borrow.endedIf_holder]
    exact different (active _ first firstActive) (active _ second secondActive)

end Keeps

end State

namespace Context

variable {context : Context}

theorem kept_stateBefore (leads : Builder.Leads context.tree 0 {} context.tree.resolved)
    {point : Point} (inside : point ≤ context.tree.resolved.length) :
    (context.stateBefore point).Kept context.tree := by
  induction point with
  | zero => exact State.kept_empty context.tree
  | succ point inductionHypothesis =>
      have listed := List.getElem?_eq_getElem (Nat.lt_of_succ_le inside)
      obtain ⟨before, after, rest, crossing, sound⟩ := crossing_at leads listed
      rw [stateBefore_succ listed]
      exact (inductionHypothesis (Nat.le_of_succ_le inside)).advance crossing sound

theorem length_trace (context : Context) (state : State) (resolved : List Resolution) :
    (context.trace state resolved).length = resolved.length := by
  induction resolved generalizing state with
  | nil => rfl
  | cons resolution rest inductionHypothesis =>
      exact congrArg Nat.succ (inductionHypothesis (context.advance state resolution))

/-- The trace lists what walking over more and more of the statements leads to. -/
theorem eq_walk_of_trace {state next : State} {resolved : List Resolution} {point : Point}
    (found : (context.trace state resolved)[point]? = some next) :
    next = context.walk state (resolved.take (point + 1)) := by
  induction resolved generalizing state point with
  | nil => cases found
  | cons resolution rest inductionHypothesis =>
      cases point with
      | zero => exact (Option.some.inj found).symm
      | succ point => exact inductionHypothesis found

end Context

/-- After every statement, an active borrow is kept by a reference of a scope that is still open,
the one recorded with the borrow; the reference has its value, and keeps no other active borrow. -/
theorem active_borrows_held_apart {unit : CodeUnit} {tree : ScopeTree}
    (built : unit.scopeTree = .ok tree) (config : Config) :
    let states := (Context.ofTree config tree).trace {} tree.resolved
    states.length = unit.statements.length ∧
      ∀ point state, states[point]? = some state →
        (∀ borrow ∈ state.ledger.borrows, borrow.isActive = true →
          state.ownership.stateOf tree borrow.holder = .owned ∧
            tree.holdsReference borrow.holder = true ∧
            tree.scopeOf borrow.holder = borrow.holderScope ∧
            tree.OpenAfter point borrow.holderScope) ∧
        state.ledger.borrows.Pairwise fun borrow other =>
          borrow.isActive = true → other.isActive = true → borrow.holder ≠ other.holder := by
  intro states
  obtain ⟨same, leadsTree⟩ := Builder.leads_of_scopeTree built
  have leads : Builder.Leads (Context.ofTree config tree).tree 0 {} tree.resolved := leadsTree
  have length : states.length = tree.resolved.length := Context.length_trace _ _ _
  refine ⟨?_, ?_⟩
  · have ends := leadsTree.end_eq
    rw [Nat.zero_add, same] at ends
    exact length.trans ends
  intro point state found
  have inside : point < tree.resolved.length := by
    rw [← length]
    exact (List.getElem?_eq_some_iff.mp found).1
  have reached : state = (Context.ofTree config tree).stateBefore (point + 1) :=
    Context.eq_walk_of_trace found
  have kept := Context.kept_stateBefore leads (Nat.succ_le_of_lt inside)
  obtain ⟨builder, leadsHere, sound⟩ :=
    Context.sound_stateBefore leads (Nat.succ_le_of_lt inside)
  rw [← reached] at kept sound
  refine ⟨?_, kept.alone⟩
  intro borrow membership active
  have valid := sound.borrows borrow membership
  refine ⟨kept.owned borrow membership active, ?_, valid.holderScope.symm, ?_⟩
  · exact leadsHere.holdsReference (valid.holder_reference active)
  · rw [valid.holderScope]
    exact leadsHere.openAfter (valid.holder_live active)

/-- Two references to one place; in an inner scope one of them is moved to a new place and that
one hidden, the other is given a new borrow. -/
def heldUnit : CodeUnit := .ofActions "held" [
  .bind (.str "x") (.bool false) none (.bool false) (.bool false),
  .borrow .shared (.str "r") (.str "x"),
  .declare (.str "s") (.bool true) (.bool false),
  .borrow .shared (.str "s") (.str "x"),
  .enter,
  .move (.str "t") (.str "r"),
  .borrow .shared (.str "s") (.str "x"),
  .bind (.str "t") (.bool false) none (.bool true) (.bool false),
  .exit,
  .read (.str "s")]

theorem held_borrows_apart :
    ∃ tree, heldUnit.scopeTree = .ok tree ∧
      let states := (Context.ofTree {} tree).trace {} tree.resolved
      (states.map fun state => (state.ledger.borrows.filter Borrow.isActive).map fun borrow =>
        (borrow.id, borrow.holder, borrow.holderScope)) =
        [[], [(0, 1, 0)], [(0, 1, 0)], [(0, 1, 0), (1, 2, 0)], [(0, 1, 0), (1, 2, 0)],
          [(0, 3, 1), (1, 2, 0)], [(0, 3, 1), (2, 2, 0)], [(2, 2, 0)], [(2, 2, 0)],
          [(2, 2, 0)]] ∧
      ∀ point state, states[point]? = some state →
        (∀ borrow ∈ state.ledger.borrows, borrow.isActive = true →
          state.ownership.stateOf tree borrow.holder = .owned ∧
            tree.holdsReference borrow.holder = true ∧
            tree.scopeOf borrow.holder = borrow.holderScope ∧
            tree.OpenAfter point borrow.holderScope) ∧
        state.ledger.borrows.Pairwise fun borrow other =>
          borrow.isActive = true → other.isActive = true → borrow.holder ≠ other.holder := by
  have known : (heldUnit.scopeTree.toOption.map fun tree =>
      ((Context.ofTree {} tree).trace {} tree.resolved).map fun state =>
        (state.ledger.borrows.filter Borrow.isActive).map fun borrow =>
          (borrow.id, borrow.holder, borrow.holderScope)) =
      some [[], [(0, 1, 0)], [(0, 1, 0)], [(0, 1, 0), (1, 2, 0)], [(0, 1, 0), (1, 2, 0)],
        [(0, 3, 1), (1, 2, 0)], [(0, 3, 1), (2, 2, 0)], [(2, 2, 0)], [(2, 2, 0)],
        [(2, 2, 0)]] := by
    decide
  obtain ⟨tree, found, held⟩ := Option.map_eq_some_iff.mp known
  have built := toOption_eq_some_iff.mp found
  exact ⟨tree, built, held, (active_borrows_held_apart built {}).2⟩

end LoanCheck
