import LoanCheck.Proofs.Check.Extents
import LoanCheck.Proofs.Liveness

/-!
# References that are borrowed themselves

Where last uses are known, a borrow ends as soon as its holder is used no more.  A holder that is
borrowed itself counts as used for as long as the new reference is, if that reference stays where
it was taken and was not borrowed before.  In the two other cases the end may come too early.
-/

namespace LoanCheck

/-- The statement that took a borrow, with the target that kept it first. -/
def ScopeTree.FirstHeldBy (tree : ScopeTree) (borrow : Borrow) (target : Target) : Prop :=
  ∃ resolution, tree.resolved[borrow.created]? = some resolution ∧
    resolution.effect = .borrow borrow.kind target ⟨borrow.referent, false⟩

namespace Context

variable {context : Context} {point : Point}

/-- What is true of every new borrow and never changes is true of all borrows. -/
theorem forall_borrows (property : Borrow → Prop)
    (leads : Builder.Leads context.tree 0 {} context.tree.resolved)
    (stays : ∀ earlier later, earlier.Continues later → property earlier → property later)
    (starts : ∀ point resolution kind target place id,
      context.tree.resolved[point]? = some resolution →
      resolution.effect = .borrow kind target ⟨place, false⟩ →
      property
        { id, referent := place, kind, created := point, holder := target.place,
          holderScope := context.tree.scopeOf target.place, origin := resolution.loc })
    (inside : point ≤ context.tree.resolved.length) :
    ∀ borrow ∈ (context.stateBefore point).ledger.borrows, property borrow := by
  induction point with
  | zero => exact fun _ membership => absurd membership List.not_mem_nil
  | succ point inductionHypothesis =>
      have listed := List.getElem?_eq_getElem (Nat.lt_of_succ_le inside)
      have known := inductionHypothesis (Nat.le_of_succ_le inside)
      generalize context.tree.resolved[point] = resolution at listed
      obtain ⟨before, after, rest, crossing, sound⟩ := crossing_at leads listed
      rw [stateBefore_succ listed, advance,
        (State.retireDead_becomes context _ _).borrows (sound.step crossing).consistent]
      intro _ membership
      obtain ⟨next, stepped, rfl⟩ := List.mem_map.mp membership
      apply stays next _ (Borrow.continues_endedIf _ _ next)
      rcases State.mem_step context sound.consistent stepped with
        ⟨borrow, old, rfl⟩ | ⟨kind, target, place, id, lends, rfl⟩
      · exact stays borrow _ (Borrow.continues_settled _ _ _ borrow) (known borrow old)
      · rw [crossing.at_point]
        exact starts point resolution kind target place id listed lends

theorem firstHeldBy_stateBefore (leads : Builder.Leads context.tree 0 {} context.tree.resolved)
    (inside : point ≤ context.tree.resolved.length) :
    ∀ borrow ∈ (context.stateBefore point).ledger.borrows,
      ∃ target, context.tree.FirstHeldBy borrow target := by
  refine forall_borrows (fun borrow => ∃ target, context.tree.FirstHeldBy borrow target) leads
    ?_ ?_ inside
  · rintro earlier later continues ⟨target, resolution, listed, lends⟩
    refine ⟨target, resolution, ?_, ?_⟩
    · rw [continues.created]
      exact listed
    · rw [continues.kind, continues.referent]
      exact lends
  · intro point resolution kind target place id listed lends
    exact ⟨target, resolution, listed, lends⟩

end Context

namespace State

/-- A borrow is ended at a point because it is used no more, while its holder is borrowed. -/
structure EndsLent (before after : State) (point : Point) (borrow reborrow : Borrow) : Prop where
  listed : borrow ∈ before.ledger.borrows
  active : borrow.isActive = true
  ended : { borrow with retired := some (point + 1) } ∈ after.ledger.borrows
  lent : reborrow ∈ after.ledger.borrows
  lasts : reborrow.isActive = true
  holder : reborrow.referent = borrow.holder

instance (before after : State) (point : Point) (borrow reborrow : Borrow) :
    Decidable (before.EndsLent after point borrow reborrow) :=
  decidable_of_iff
    (borrow ∈ before.ledger.borrows ∧ borrow.isActive = true ∧
      { borrow with retired := some (point + 1) } ∈ after.ledger.borrows ∧
      reborrow ∈ after.ledger.borrows ∧ reborrow.isActive = true ∧
      reborrow.referent = borrow.holder)
    ⟨fun ⟨listed, active, ended, lent, lasts, holder⟩ =>
        ⟨listed, active, ended, lent, lasts, holder⟩,
      fun ⟨listed, active, ended, lent, lasts, holder⟩ =>
        ⟨listed, active, ended, lent, lasts, holder⟩⟩

variable {context : Context} {state : State} {liveness : Liveness} {point : Point} {borrow : Borrow}

theorem dead_of_retireDead (consistent : state.ledger.Consistent)
    (precise : context.liveness = some liveness) (membership : borrow ∈ state.ledger.borrows)
    (active : borrow.isActive = true)
    (ended : { borrow with retired := some (point + 1) } ∈
      (state.retireDead context point).ledger.borrows) :
    liveness.liveAfter borrow.holder point = false := by
  have becomes := retireDead_becomes context state point
  rw [becomes.borrows consistent, precise] at ended
  obtain ⟨old, listed, same⟩ := List.mem_map.mp ended
  have sameId : old.id = borrow.id := by
    have ids := congrArg Borrow.id same
    rw [Borrow.endedIf_id] at ids
    exact ids
  have isOld := consistent.getElem?_of_mem listed
  rw [sameId, consistent.getElem?_of_mem membership, Option.some.injEq] at isOld
  subst isOld
  by_contra live
  rw [Bool.not_eq_false] at live
  have kept : borrow.endedIf (fun other => (some liveness).any fun known =>
      !known.liveAfter other.holder point) (point + 1) = borrow := by
    simp [Borrow.endedIf, live]
  have retired := congrArg Borrow.retired same
  rw [kept, (Borrow.isActive_iff borrow).mp active] at retired
  cases retired

theorem live_of_retireDead (consistent : state.ledger.Consistent)
    (precise : context.liveness = some liveness)
    (membership : borrow ∈ (state.retireDead context point).ledger.borrows)
    (active : borrow.isActive = true) : liveness.liveAfter borrow.holder point = true := by
  have becomes := retireDead_becomes context state point
  rw [becomes.borrows consistent, precise] at membership
  obtain ⟨old, _, rfl⟩ := List.mem_map.mp membership
  rw [Borrow.isActive_endedIf] at active
  rw [Borrow.endedIf_holder]
  simpa using (Bool.and_eq_true_iff.mp active).2

end State

/-- Where a borrow is ended because its holder is used no more, although the holder is borrowed
itself, that reborrow has been passed on since it was taken, or the reference that keeps it had
been borrowed before that, by a reference that is still used. -/
theorem retired_holder_reborrowed {unit : CodeUnit} {config : Config} {tree : ScopeTree}
    (built : unit.scopeTree = .ok tree) (precise : config.precise = true) {point : Point}
    {resolution : Resolution} (listed : tree.resolved[point]? = some resolution)
    {borrow reborrow : Borrow} :
    let context := Context.ofTree config tree
    let before := (context.stateBefore point).step context resolution
    before.EndsLent (before.retireDead context point) point borrow reborrow →
      ∃ target, tree.FirstHeldBy reborrow target ∧
        (reborrow.holder ≠ target.place ∨
          tree.LentBefore reborrow.created target.place point) := by
  intro context before ends
  have leads : Builder.Leads context.tree 0 {} tree.resolved := (Builder.leads_of_scopeTree built).2
  obtain ⟨builder, next, rest, crossing, sound⟩ := Context.crossing_at leads listed
  have stepped : before.Sound tree (point + 1) next := sound.step crossing
  have known : context.liveness = some tree.liveness := by simp [context, Context.ofTree, precise]
  have dead := State.dead_of_retireDead stepped.consistent known ends.listed ends.active ends.ended
  have live := State.live_of_retireDead stepped.consistent known ends.lent ends.lasts
  have lent := ends.lent
  rw [← crossing.at_point, ← Context.advance, ← Context.stateBefore_succ listed] at lent
  obtain ⟨inside, _⟩ := List.getElem?_eq_some_iff.mp listed
  obtain ⟨target, first⟩ :=
    Context.firstHeldBy_stateBefore leads (Nat.succ_le_of_lt inside) reborrow lent
  refine ⟨target, first, ?_⟩
  by_cases moved : reborrow.holder = target.place
  · right
    obtain ⟨taking, listedTaking, lends⟩ := first
    rw [ends.holder] at lends
    rw [moved] at live
    have reference : tree.holdsReference borrow.holder = true := crossing.leads_after.holdsReference
      ((stepped.borrows borrow ends.listed).holder_reference ends.active)
    rcases tree.liveAfter_of_borrow listedTaking lends reference live with alive | early
    · cases dead.symm.trans alive
    · exact early
  · exact .inl moved

/-- A borrow through `a` is moved on from the reference it was taken by. -/
def movedReborrow : CodeUnit := .ofActions "moved" [
  .bind (.str "x") (.bool true) none (.bool false) (.bool false),
  .borrow .exclusive (.str "a") (.str "x"),
  .borrow .shared (.str "b") (.str "a"),
  .move (.str "c") (.str "b"),
  .write (.str "x"),
  .read (.str "c")]

/-- `t` is borrowed by `u` before it is given a borrow through `s`; the last use of `u` is the
last statement. -/
def lentReborrow : CodeUnit := .ofActions "lent" [
  .bind (.str "x") (.bool false) none (.bool false) (.bool false),
  .bind (.str "v") (.bool false) none (.bool false) (.bool false),
  .borrow .shared (.str "s") (.str "x"),
  .declare (.str "t") (.bool true) (.bool false),
  .borrow .shared (.str "t") (.str "x"),
  .declare (.str "u") (.bool true) (.bool false),
  .borrow .shared (.str "u") (.str "t"),
  .read (.str "u"),
  .borrow .shared (.str "u") (.str "v"),
  .borrow .shared (.str "t") (.str "s"),
  .read (.str "t"),
  .read (.str "u")]

/-- Whether a borrow is ended in precise mode while its holder is borrowed. -/
def CodeUnit.endsLentAt? (unit : CodeUnit) (point : Point) (borrow reborrow : Borrow) :
    Option Bool := do
  let tree ← unit.scopeTree.toOption
  let resolution ← tree.resolved[point]?
  let context := Context.ofTree { precise := true } tree
  let before := (context.stateBefore point).step context resolution
  return before.EndsLent (before.retireDead context point) point borrow reborrow

theorem CodeUnit.endsLentAt?_cases {unit : CodeUnit} {point : Point} {borrow reborrow : Borrow}
    (found : unit.endsLentAt? point borrow reborrow = some true) :
    ∃ tree resolution, unit.scopeTree = .ok tree ∧ tree.resolved[point]? = some resolution ∧
      let context := Context.ofTree { precise := true } tree
      let before := (context.stateBefore point).step context resolution
      before.EndsLent (before.retireDead context point) point borrow reborrow := by
  simp only [endsLentAt?, Option.bind_eq_bind, Option.bind_eq_some_iff, Option.pure_def,
    Option.some.injEq, decide_eq_true_eq] at found
  obtain ⟨tree, built, resolution, listed, ends⟩ := found
  exact ⟨tree, resolution, toOption_eq_some_iff.mp built, listed, ends⟩

def movedOuter : Borrow :=
  { id := 0, referent := 0, kind := .exclusive, created := 1, holder := 1, holderScope := 0,
    origin := {} }

def movedInner : Borrow :=
  { id := 1, referent := 1, kind := .shared, created := 2, holder := 3, holderScope := 0,
    origin := {} }

def lentOuter : Borrow :=
  { id := 0, referent := 0, kind := .shared, created := 2, holder := 2, holderScope := 0,
    origin := {} }

def lentInner : Borrow :=
  { id := 4, referent := 2, kind := .shared, created := 9, holder := 3, holderScope := 0,
    origin := {} }

/-- In both units a borrow is ended although its holder is borrowed, and nothing is reported. -/
theorem reborrowed_holders_end_early :
    [movedReborrow, lentReborrow].map (fun unit =>
      (unit.analyse { precise := true } false).toOption.map UnitResult.accepted) =
        [some true, some true] ∧
    movedReborrow.endsLentAt? 3 movedOuter movedInner = some true ∧
    lentReborrow.endsLentAt? 10 lentOuter lentInner = some true ∧
    (∃ tree, movedReborrow.scopeTree = .ok tree ∧ ∃ target, tree.FirstHeldBy movedInner target ∧
      (movedInner.holder ≠ target.place ∨ tree.LentBefore movedInner.created target.place 3)) ∧
    (∃ tree, lentReborrow.scopeTree = .ok tree ∧ ∃ target, tree.FirstHeldBy lentInner target ∧
      (lentInner.holder ≠ target.place ∨ tree.LentBefore lentInner.created target.place 10)) := by
  have moved : movedReborrow.endsLentAt? 3 movedOuter movedInner = some true := by decide
  have lent : lentReborrow.endsLentAt? 10 lentOuter lentInner = some true := by
    decide +kernel
  refine ⟨by decide +kernel, moved, lent, ?_, ?_⟩
  · obtain ⟨tree, resolution, built, listed, ends⟩ := CodeUnit.endsLentAt?_cases moved
    exact ⟨tree, built, retired_holder_reborrowed built rfl listed ends⟩
  · obtain ⟨tree, resolution, built, listed, ends⟩ := CodeUnit.endsLentAt?_cases lent
    exact ⟨tree, built, retired_holder_reborrowed built rfl listed ends⟩

end LoanCheck
