import LoanCheck.Proofs.Check.Composition
import LoanCheck.Proofs.Scope.Nesting

/-!
# What the end of a scope reports

The places of a scope first let go of what they keep, then they are dropped, the last one
first.  So the end of a scope tells of each borrow of one of its places that is kept outside
the scope, once, and of nothing else; and its places keep nothing any more.
-/

namespace LoanCheck

/-- What is told of a borrow whose referent is dropped. -/
def ScopeTree.outlived (tree : ScopeTree) (point : Point) (span : Span) (borrow : Borrow) :
    Diagnostic :=
  let referent := tree.named borrow.referent
  let holder := tree.named borrow.holder
  { kind := .danglingReference
    message := (Violation.outlivedReferent (tree.name borrow.referent)
      (tree.name borrow.holder)).message
    point
    place := tree.name borrow.holder
    borrow := some borrow.id
    span
    notes := Ledger.notes tree borrow ++
      [s!"{referent} dropped here while {holder} is still alive"] }

namespace Borrow

/-- Dropping a place leaves the active borrows of all other places. -/
theorem filter_map_outlivedIf {place other : PlaceId} (different : other ≠ place) (point : Point)
    (borrows : List Borrow) :
    ((borrows.map (outlivedIf (· == place) point)).filter fun borrow =>
        borrow.isActive && borrow.referent == other) =
      borrows.filter fun borrow => borrow.isActive && borrow.referent == other := by
  induction borrows with
  | nil => rfl
  | cons borrow rest inductionHypothesis =>
      rw [List.map_cons, List.filter_cons, List.filter_cons, inductionHypothesis]
      by_cases same : borrow.referent = other
      · have spared : borrow.outlivedIf (· == place) point = borrow := by
          simp [outlivedIf, same, different]
        rw [spared]
      · simp [same]

end Borrow

namespace State

variable (context : Context) {state : State} {place : PlaceId} {places : List PlaceId}
  (point : Point) (span : Span)

theorem foldl_reportOutliving_diagnostics (borrows : List Borrow)
    (borrowed : ∀ borrow ∈ borrows, borrow.referent = place) (state : State) :
    (borrows.foldl (fun state borrow => reportOutliving context state place point span borrow)
      state).diagnostics =
        state.diagnostics ++ borrows.map (context.tree.outlived point span) := by
  induction borrows generalizing state with
  | nil => exact (List.append_nil _).symm
  | cons borrow rest inductionHypothesis =>
      rw [List.foldl_cons, inductionHypothesis fun other later =>
        borrowed other (List.mem_cons_of_mem _ later), List.map_cons]
      have told : (reportOutliving context state place point span borrow).diagnostics =
          state.diagnostics ++ [context.tree.outlived point span borrow] := by
        rw [← borrowed borrow List.mem_cons_self]
        rfl
      rw [told, List.append_assoc, List.singleton_append]

/-- No active borrow is kept by one of some places. -/
def Spares (places : List PlaceId) (state : State) : Prop :=
  ∀ borrow ∈ state.ledger.borrows, borrow.isActive = true → borrow.holder ∉ places

/-- A place that keeps nothing has nothing to let go of. -/
theorem Spares.retireHeldBy_becomes (spares : state.Spares (place :: places)) :
    Becomes state id id (state.retireHeldBy place point) := by
  refine (State.retireHeldBy_becomes state place point).congr ?_
  intro _ borrow listed
  cases active : borrow.isActive with
  | false => exact Borrow.endedIf_of_ended active _ _
  | true =>
      have other : borrow.holder ≠ place := fun same =>
        spares borrow listed active (List.mem_cons.mpr (.inl same))
      simp [Borrow.endedIf, other]

theorem Spares.dropPlace_becomes (spares : state.Spares (place :: places)) :
    Becomes state (Borrow.outlivedIf (· == place) point)
      (fun ownership => ownership.drop context.tree place)
      (dropPlace context state place point span) := by
  have quietly := spares.retireHeldBy_becomes point
  exact (quietly.trans (checkDrop_becomes context _ place point span)).trans
    (Becomes.of_ownership _ fun ownership => ownership.drop context.tree place)

section Drop

variable (consistent : state.ledger.Consistent)

include consistent

/-- A place that keeps nothing is dropped: the active borrows of it are told of, the oldest
first. -/
theorem Spares.dropPlace_diagnostics (spares : state.Spares (place :: places)) :
    (dropPlace context state place point span).diagnostics =
      state.diagnostics ++
        (state.ledger.activeOn place).map (context.tree.outlived point span) := by
  have kept := (spares.retireHeldBy_becomes point).activeOn_eq consistent place
  have borrowed : ∀ borrow ∈ state.ledger.activeOn place, borrow.referent = place := by
    rw [consistent.activeOn_eq]
    intro borrow listed
    have picked := (List.mem_filter.mp listed).2
    exact beq_iff_eq.mp (Bool.and_eq_true_iff.mp picked).2
  rw [dropPlace, checkDrop, kept]
  exact foldl_reportOutliving_diagnostics context point span _ borrowed _

theorem Spares.dropPlace (spares : state.Spares (place :: places)) :
    (dropPlace context state place point span).Spares places := by
  unfold Spares
  rw [(spares.dropPlace_becomes context point span).borrows consistent]
  intro _ listed active
  obtain ⟨borrow, old, rfl⟩ := List.mem_map.mp listed
  rw [Borrow.isActive_outlivedIf, Bool.and_eq_true_iff] at active
  rw [Borrow.outlivedIf_holder]
  exact fun later => spares borrow old active.1 (List.mem_cons_of_mem _ later)

theorem Spares.activeOn_dropPlace (spares : state.Spares (place :: places)) {other : PlaceId}
    (different : other ≠ place) :
    (State.dropPlace context state place point span).ledger.activeOn other =
      state.ledger.activeOn other := by
  have becomes := spares.dropPlace_becomes context point span
  rw [(becomes.consistent consistent).activeOn_eq, consistent.activeOn_eq,
    becomes.borrows consistent, Borrow.filter_map_outlivedIf different]

/-- Places that keep nothing are dropped one after the other, and each one tells of its own
borrows. -/
theorem Spares.foldl_dropPlace_diagnostics (distinct : places.Nodup)
    (spares : state.Spares places) :
    (places.foldl (fun state place => State.dropPlace context state place point span)
      state).diagnostics =
        state.diagnostics ++
          (places.flatMap state.ledger.activeOn).map (context.tree.outlived point span) := by
  induction places generalizing state with
  | nil => exact (List.append_nil _).symm
  | cons place rest inductionHypothesis =>
      obtain ⟨fresh, distinct⟩ := List.nodup_cons.mp distinct
      have becomes := spares.dropPlace_becomes context point span
      have others : rest.flatMap (State.dropPlace context state place point span).ledger.activeOn =
          rest.flatMap state.ledger.activeOn := by
        rw [List.flatMap_congr]
        intro other later
        exact spares.activeOn_dropPlace context point span consistent
          (ne_of_mem_of_not_mem later fresh)
      rw [List.foldl_cons, inductionHypothesis (becomes.consistent consistent) distinct
        (spares.dropPlace context point span consistent), others,
        spares.dropPlace_diagnostics context point span consistent, List.flatMap_cons,
        List.map_append, List.append_assoc]

end Drop

/-- The borrows that outlive a scope, those of its last place first: they are active and kept
by none of the places that are still there. -/
def outliving (tree : ScopeTree) (scope : ScopeId) (state : State) : List Borrow :=
  let places := state.ownership.remaining tree scope
  places.reverse.flatMap fun place => state.ledger.borrows.filter fun borrow =>
    !places.contains borrow.holder && (borrow.isActive && borrow.referent == place)

/-- The end of a scope tells of the borrows that outlive it, and of nothing else. -/
theorem exitScope_diagnostics {scope : ScopeId} (consistent : state.ledger.Consistent)
    (distinct : (context.tree.placesOf scope).Nodup) :
    (exitScope context state scope point span).diagnostics =
      state.diagnostics ++
        (state.outliving context.tree scope).map (context.tree.outlived point span) := by
  have ended := foldl_retireHeldBy_becomes (state.ownership.remaining context.tree scope) point
    state
  have quietly := foldl_retireHeldBy_diagnostics (state.ownership.remaining context.tree scope)
    point state
  unfold exitScope outliving
  rw [← Ownership.remaining]
  generalize same : state.ownership.remaining context.tree scope = places at ended quietly ⊢
  have inOrder := ended.consistent consistent
  have spares : Spares places.reverse
      (places.foldl (fun state place => state.retireHeldBy place point) state) := by
    unfold Spares
    rw [ended.borrows consistent]
    intro _ listed active
    obtain ⟨borrow, _, rfl⟩ := List.mem_map.mp listed
    rw [Borrow.isActive_endedIf] at active
    simpa using (Bool.and_eq_true_iff.mp active).2
  have remains : places.reverse.Nodup := by
    rw [← same, List.nodup_reverse]
    exact distinct.filter _
  rw [spares.foldl_dropPlace_diagnostics context point span inOrder remains, quietly]
  congr 2
  apply List.flatMap_congr
  intro place _
  rw [inOrder.activeOn_eq, ended.borrows consistent, Borrow.filter_map_endedIf]

theorem mem_outliving_iff {tree : ScopeTree} {scope : ScopeId} (kept : state.Kept tree)
    {borrow : Borrow} :
    borrow ∈ state.outliving tree scope ↔
      borrow ∈ state.ledger.borrows ∧ borrow.isActive = true ∧
        borrow.referent ∈ tree.placesOf scope ∧
        state.ownership.stateOf tree borrow.referent ≠ .dropped ∧
        borrow.holder ∉ tree.placesOf scope := by
  simp only [outliving, Ownership.remaining, List.mem_flatMap, List.mem_reverse, List.mem_filter,
    bne_iff_ne, Bool.and_eq_true, beq_iff_eq, Bool.not_eq_true', List.contains_eq_mem,
    decide_eq_false_iff_not, not_and, not_not]
  constructor
  · rintro ⟨place, ⟨inScope, there⟩, listed, away, active, rfl⟩
    refine ⟨listed, active, inScope, there, ?_⟩
    -- A holder has its value, so it would be among the places that are still there.
    intro inside
    have gone := away inside
    rw [kept.owned borrow listed active] at gone
    cases gone
  · rintro ⟨listed, active, inScope, there, outside⟩
    exact ⟨borrow.referent, ⟨inScope, there⟩, listed, fun inside => absurd inside outside, active,
      rfl⟩

end State

namespace CodeUnit

variable {unit : CodeUnit} {tree : ScopeTree} (built : unit.scopeTree = .ok tree)

include built

/-- The borrows that outlive a scope stand in reverse order of the declarations of their
referents, and those of one referent in the order in which they were taken. -/
theorem outliving_in_order {state : State} (consistent : state.ledger.Consistent)
    (scope : ScopeId) :
    (state.outliving tree scope).Pairwise fun first second =>
      tree.declaredAt second.referent < tree.declaredAt first.referent ∨
        first.referent = second.referent ∧ first.id < second.id := by
  have referent : ∀ {test : Borrow → Bool} {place : PlaceId} {borrow : Borrow},
      borrow ∈ state.ledger.borrows.filter (fun borrow => test borrow &&
        (borrow.isActive && borrow.referent == place)) → borrow.referent = place := by
    intro test place borrow listed
    simp only [List.mem_filter, Bool.and_eq_true, beq_iff_eq] at listed
    exact listed.2.2.2
  rw [State.outliving, List.pairwise_flatMap, List.pairwise_reverse]
  refine ⟨?_, ?_⟩
  · intro place _
    refine (consistent.pairwise_ids.filter _).imp_of_mem ?_
    intro first second firstListed secondListed order
    exact .inr ⟨(referent firstListed).trans (referent secondListed).symm, order⟩
  · refine ((placesOf_in_order built scope).filter _).imp_of_mem ?_
    intro early late earlyListed lateListed order first firstListed second secondListed
    refine .inl ?_
    rw [referent firstListed, referent secondListed]
    exact declaredAt_lt built (List.mem_of_mem_filter earlyListed)
      (List.mem_of_mem_filter lateListed) order

/-- A scope that is open when another one ends lies around it. -/
theorem isAncestor_of_open {point : Point} {before after : Builder} {resolution : Resolution}
    {rest : List Resolution} {scope outer : ScopeId}
    (crossing : Builder.Crossing tree point before resolution after rest)
    (exits : resolution.effect = .exit scope) (isOpen : outer ∈ before.openScopes) :
    tree.isAncestor outer scope = true := by
  have nested := nested_scopeTree built
  have leads := crossing.leads_before
  obtain ⟨scopes, ended⟩ := crossing.transition.closes scope (by rw [exits]; rfl)
  have ends := crossing.leads_after.exitPoint_of_ended ended
  have known : ∀ other ∈ before.openScopes,
      other < tree.scopes.length ∧ tree.enterPoint other ≤ point := by
    intro other otherOpen
    obtain ⟨start, started, _⟩ := leads.wellFormed.started other otherOpen
    obtain ⟨found, listed, enters⟩ := leads.enter_of_started started
    refine ⟨(List.getElem?_eq_some_iff.mp listed).1, ?_⟩
    rw [ScopeTree.enterPoint, listed, Option.elim_some, enters]
    exact leads.wellFormed.start_le otherOpen started
  obtain ⟨outside, entered⟩ := known outer isOpen
  have inside := (known scope (scopes ▸ List.mem_cons_self)).1
  rw [nested.isAncestor_iff]
  apply nested.around_of_exit_le outside inside
  · rw [ends]
    exact entered
  · rw [ends]
    exact leads.le_exitPoint isOpen

/-- The end of a scope tells of exactly the borrows that outlive it: those that were active, of a
place of the scope that was still there, and kept by no place of the scope.  Each of them is told
of once, the borrows of the place that was declared last first, and the borrows of one place in
the order in which they were taken.  Their holders are declared in scopes around the one that
ends, and its own places keep nothing any more. -/
theorem scope_exit_reports_outliving (config : Config) {point : Point} {resolution : Resolution}
    {scope : ScopeId} (listed : tree.resolved[point]? = some resolution)
    (exits : resolution.effect = .exit scope) :
    let context := Context.ofTree config tree
    let before := context.stateBefore point
    ∃ (statement : Statement) (outliving : List Borrow),
      unit.statements[point]? = some statement ∧
      (∀ borrow, borrow ∈ outliving ↔
        borrow ∈ before.ledger.borrows ∧ borrow.isActive = true ∧
          borrow.referent ∈ tree.placesOf scope ∧
          before.ownership.stateOf tree borrow.referent ≠ .dropped ∧
          borrow.holder ∉ tree.placesOf scope) ∧
      outliving.Pairwise (fun first second =>
        tree.declaredAt second.referent < tree.declaredAt first.referent ∨
          first.referent = second.referent ∧ first.id < second.id) ∧
      context.run.diagnostics.filter (Diagnostic.isAt point) =
        outliving.map (tree.outlived point statement.loc) ∧
      (∀ borrow ∈ outliving, tree.isAncestor (tree.scopeOf borrow.holder) scope = true ∧
        tree.scopeOf borrow.holder ≠ scope) ∧
      ∀ borrow ∈ (context.stateBefore (point + 1)).ledger.borrows, borrow.isActive = true →
        borrow.holder ∉ tree.placesOf scope := by
  intro context before
  have leads : Builder.Leads context.tree 0 {} context.tree.resolved :=
    (Builder.leads_of_scopeTree built).2
  have inside : point < context.tree.resolved.length := (List.getElem?_eq_some_iff.mp listed).1
  obtain ⟨statement, builder, after, rest, passage⟩ := passage_at built listed
  have bound := (List.getElem?_eq_some_iff.mp passage.listed).1
  have sound : State.Sound tree point builder before :=
    sound_builderAt built config (Nat.le_of_lt bound) passage.reached
  have kept : before.Kept tree := Context.kept_stateBefore leads (Nat.le_of_lt inside)
  have distinct : (tree.placesOf scope).Nodup :=
    (placesOf_in_order built scope).imp Nat.ne_of_lt
  have told : before.diagnostics ++ context.run.diagnostics.filter (Diagnostic.isAt point) =
      before.diagnostics ++
        (before.outliving tree scope).map (tree.outlived point statement.loc) := by
    rw [← Context.filter_run_eq leads listed, Context.stateBefore_succ listed, Context.advance,
      State.retireDead_diagnostics, State.step, exits, passage.resolves.at_point,
      passage.resolves.loc]
    exact State.exitScope_diagnostics context point statement.loc sound.consistent distinct
  refine ⟨statement, before.outliving tree scope, passage.listed,
    fun borrow => State.mem_outliving_iff kept, outliving_in_order built sound.consistent scope,
    List.append_cancel_left told, ?_, ?_⟩
  · intro borrow outlives
    obtain ⟨known, active, _, _, outside⟩ := (State.mem_outliving_iff kept).mp outlives
    have live := (sound.borrows borrow known).holder_live active
    have leadsHere := passage.crossing.leads_before
    obtain ⟨found, declared, isOpen, _⟩ := leadsHere.wellFormed.declared_of_live live
    rw [leadsHere.scopeOf_eq declared]
    refine ⟨isAncestor_of_open built passage.crossing exits isOpen, ?_⟩
    intro same
    exact outside ((leadsHere.mem_placesOf_iff declared).mpr same)
  · -- The places of the scope are dropped, and the holder of an active borrow is not.
    intro borrow known active inScope
    have owned := (Context.kept_stateBefore leads (Nat.succ_le_of_lt inside)).owned borrow known
      active
    change borrow.holder ∈ context.tree.placesOf scope at inScope
    rw [Context.stateBefore_succ listed, Context.advance_ownership, exits, Ownership.after,
      Ownership.stateOf_leave, if_pos inScope] at owned
    cases owned

end CodeUnit

/-- Three references outside a block to two places of it, and one inside, declared before what
it refers to. -/
def referencesOutOfBlock : CodeUnit := .ofActions "references out of a block" [
  .declare (.str "r") (.bool true) (.bool false),
  .declare (.str "s") (.bool true) (.bool false),
  .declare (.str "t") (.bool true) (.bool false),
  .enter,
  .declare (.str "q") (.bool true) (.bool false),
  .bind (.str "a") (.bool false) none (.bool false) (.bool false),
  .bind (.str "b") (.bool false) none (.bool false) (.bool false),
  .borrow .shared (.str "r") (.str "a"),
  .borrow .shared (.str "s") (.str "b"),
  .borrow .shared (.str "t") (.str "a"),
  .borrow .shared (.str "q") (.str "b"),
  .exit]

/-- The borrow of `b`, which is declared last, is told of first; the one that `q` keeps ends
with the block. -/
theorem referencesOutOfBlock_outlive :
    ∃ (tree : ScopeTree) (outliving : List Borrow), referencesOutOfBlock.scopeTree = .ok tree ∧
      outliving.map Borrow.id = [1, 0, 2] ∧
      (Context.ofTree {} tree).run.diagnostics.filter (Diagnostic.isAt 11) =
        outliving.map (tree.outlived 11 {}) ∧
      ∀ borrow ∈ outliving, tree.isAncestor (tree.scopeOf borrow.holder) 1 = true ∧
        tree.scopeOf borrow.holder ≠ 1 := by
  have known : (referencesOutOfBlock.scopeTree.toOption.map fun tree =>
      ((tree.resolved[11]?).bind fun resolution => resolution.effect.closes?,
        ((Context.ofTree {} tree).run.diagnostics.filter (Diagnostic.isAt 11)).map
          Diagnostic.borrow)) = some (some 1, [some 1, some 0, some 2]) := by
    decide +kernel
  obtain ⟨tree, found, facts⟩ := Option.map_eq_some_iff.mp known
  have built := toOption_eq_some_iff.mp found
  rw [Prod.mk.injEq] at facts
  obtain ⟨closes, borrows⟩ := facts
  obtain ⟨resolution, listed, closes⟩ := Option.bind_eq_some_iff.mp closes
  have exits : resolution.effect = .exit 1 := by
    generalize resolution.effect = effect at closes
    cases effect <;> cases closes
    rfl
  obtain ⟨statement, outliving, last, _, _, told, around, _⟩ :=
    CodeUnit.scope_exit_reports_outliving built {} listed exits
  cases last
  refine ⟨tree, outliving, built, ?_, told, around⟩
  rw [told, List.map_map] at borrows
  refine (List.map_inj_right fun _ _ same => Option.some.inj same).mp ?_
  rw [List.map_map]
  exact borrows

end LoanCheck
