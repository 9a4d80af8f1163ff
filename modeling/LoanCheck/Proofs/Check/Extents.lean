import LoanCheck.Proofs.Check.Invariant

/-!
# How long borrows last in a finished analysis

Every borrow has ended when the unit has, and its extent lies inside the scope of its last
holder.  Extents of borrows of one place meet only if both borrows are shared.  An extent
also lies inside the lifetime of the referent, but for one kind of borrow: one whose
reference took over the name of the place it refers to.
-/

namespace LoanCheck

/-- A unit whose statements have no place in a source. -/
def CodeUnit.ofActions (name : String) (actions : List Action) : CodeUnit :=
  { name, statements := actions.map fun action => { action } }

/-- Two extents have a point in common. -/
def Extent.Meets (first second : Extent) : Prop :=
  ∃ point, first.start ≤ point ∧ point < first.stop ∧ second.start ≤ point ∧ point < second.stop

/-- A unit with a scope tree that is not too large is analysed, in a run over that tree. -/
theorem CodeUnit.check_of_scopeTree {unit : CodeUnit} {config : Config} {tree : ScopeTree}
    (admitted : config.admits unit = .ok ()) (built : unit.scopeTree = .ok tree)
    (recordStates : Bool) :
    ∃ states, unit.check config recordStates =
      .ok ⟨Context.ofTree config tree, (Context.ofTree config tree).run, states⟩ := by
  rw [check, admitted, built]
  exact ⟨_, rfl⟩

theorem CodeUnit.check_eq_ok {unit : CodeUnit} {config : Config}
    (built : unit.scopeTree.isOk = true) (admitted : config.admits unit = .ok ())
    (recordStates : Bool) :
    ∃ outcome, unit.check config recordStates = .ok outcome ∧
      unit.scopeTree = .ok outcome.context.tree ∧ outcome.final = outcome.context.run := by
  cases found : unit.scopeTree with
  | error reason => simp [found, Except.isOk, Except.toBool] at built
  | ok tree =>
      obtain ⟨_, checked⟩ := check_of_scopeTree admitted found recordStates
      exact ⟨_, checked, rfl, rfl⟩

namespace Borrow

theorem extent?_of_ended {borrow : Borrow} (ended : borrow.isActive = false) :
    ∃ stop, borrow.retired = some stop ∧ borrow.extent? = some ⟨borrow.created, stop⟩ := by
  cases retired : borrow.retired with
  | none => simp [isActive, retired] at ended
  | some stop => exact ⟨stop, rfl, by simp [extent?, retired]⟩

/-- Compatible borrows of one place whose extents meet are both shared. -/
theorem Compatible.shared_of_meets {first second : Borrow} (compatible : Compatible first second)
    (same : first.referent = second.referent) {left right : Extent}
    (firstExtent : first.extent? = some left) (secondExtent : second.extent? = some right)
    (meets : left.Meets right) : first.kind = .shared ∧ second.kind = .shared := by
  rcases compatible same with shared | ⟨stop, ended, before⟩
  · exact shared
  · simp only [extent?, ended, Option.map_some, Option.some.injEq] at firstExtent
    obtain ⟨last, _, rfl⟩ := Option.map_eq_some_iff.mp secondExtent
    subst firstExtent
    obtain ⟨point, _, beforeStop, afterStart, _⟩ := meets
    exact absurd (Nat.lt_of_lt_of_le beforeStop before) (Nat.not_lt.mpr afterStart)

end Borrow

/-- When an analysis finishes, every borrow has ended after a non-empty extent within the
scope of its last holder, and borrows of one place whose extents meet are shared. -/
theorem check_borrows_exclusive {unit : CodeUnit} {config : Config}
    (built : unit.scopeTree.isOk = true) (admitted : config.admits unit = .ok ())
    (recordStates : Bool) :
    ∃ outcome, unit.check config recordStates = .ok outcome ∧
      unit.scopeTree = .ok outcome.context.tree ∧
      (∀ borrow ∈ outcome.borrows, ∃ extent, borrow.extent? = some extent ∧
        extent.start < extent.stop ∧
        borrow.holderScope = outcome.context.tree.scopeOf borrow.holder ∧
        extent.stop ≤ outcome.context.tree.exitPoint borrow.holderScope) ∧
      outcome.borrows.Pairwise fun first second =>
        first.referent = second.referent →
        ∀ left right, first.extent? = some left → second.extent? = some right →
          left.Meets right → first.kind = .shared ∧ second.kind = .shared := by
  obtain ⟨outcome, checked, tree, final⟩ := CodeUnit.check_eq_ok built admitted recordStates
  obtain ⟨builder, last, sound, compatible⟩ :=
    Context.sound_run (Builder.leads_of_scopeTree tree).2
  rw [← final] at sound compatible
  refine ⟨outcome, checked, tree, ?_, ?_⟩
  · intro borrow membership
    obtain ⟨valid, ended⟩ := sound borrow membership
    obtain ⟨stop, retired, extent⟩ := Borrow.extent?_of_ended ended
    exact ⟨_, extent, valid.nonempty stop retired, valid.holderScope,
      valid.within_holder stop retired⟩
  · refine compatible.imp ?_
    intro first second both same left right firstExtent secondExtent meets
    exact both.shared_of_meets same firstExtent secondExtent meets

/-- A place is borrowed exclusively, refused a second borrow, written through the reference
after that was moved, and borrowed again. -/
def reborrowedUnit : CodeUnit := .ofActions "reborrowed" [
  .bind (.str "x") (.bool true) none (.bool false) (.bool false),
  .borrow .exclusive (.str "r") (.str "x"),
  .borrow .shared (.str "early") (.str "x"),
  .move (.str "s") (.str "r"),
  .write (.str "s"),
  .borrow .shared (.str "t") (.str "x"),
  .borrow .shared (.str "u") (.str "x"),
  .read (.str "t")]

theorem reborrowed_borrows_exclusive :
    ((reborrowedUnit.check { precise := true } false).toOption.map fun outcome =>
      outcome.borrows.map fun borrow => (borrow.kind, borrow.extent?)) =
        some [(.exclusive, some ⟨1, 5⟩), (.shared, some ⟨5, 8⟩), (.shared, some ⟨6, 7⟩)] ∧
    ∃ outcome, reborrowedUnit.check { precise := true } false = .ok outcome ∧
      reborrowedUnit.scopeTree = .ok outcome.context.tree ∧
      (∀ borrow ∈ outcome.borrows, ∃ extent, borrow.extent? = some extent ∧
        extent.start < extent.stop ∧
        borrow.holderScope = outcome.context.tree.scopeOf borrow.holder ∧
        extent.stop ≤ outcome.context.tree.exitPoint borrow.holderScope) ∧
      outcome.borrows.Pairwise fun first second =>
        first.referent = second.referent →
        ∀ left right, first.extent? = some left → second.extent? = some right →
          left.Meets right → first.kind = .shared ∧ second.kind = .shared :=
  ⟨by decide, check_borrows_exclusive (by decide) rfl false⟩

/-- A sound borrow that has ended lies inside the lifetime of its referent, or it was taken by
a reference that hid the referent and was then passed on to a scope that ends later. -/
theorem Borrow.Sound.inside_or_shadows {tree : ScopeTree} {builder : Builder} {point stop : Point}
    {rest : List Resolution} {borrow : Borrow}
    (leads : Builder.Leads tree point builder rest) (sound : borrow.Sound tree builder point)
    (retired : borrow.retired = some stop) :
    Extent.inside ⟨borrow.created, stop⟩ (borrow.referentLifetime tree) = true ∨
      (tree.ShadowsReferent borrow ∧ (borrow.referentLifetime tree).start ≤ borrow.created ∧
        (borrow.referentLifetime tree).stop < stop ∧
        stop ≤ tree.exitPoint borrow.holderScope) := by
  obtain ⟨found, known, earlier⟩ := sound.declared
  have started : (borrow.referentLifetime tree).start ≤ borrow.created := by
    rw [← leads.declaredAt_eq known] at earlier
    exact earlier
  by_cases inside : stop ≤ (borrow.referentLifetime tree).stop
  · left
    simp only [Extent.inside, Bool.and_eq_true, decide_eq_true_eq]
    exact ⟨started, inside⟩
  · rcases sound.within_referent stop retired with contained | shadows
    · exact absurd contained inside
    · exact .inr ⟨shadows, started, Nat.lt_of_not_le inside, sound.within_holder stop retired⟩

/-- The extent of every borrow lies inside the lifetime of its referent, unless the reference
it was first kept in took over the name of the referent and was passed on. -/
theorem check_borrows_within_lifetime {unit : CodeUnit} {config : Config}
    (built : unit.scopeTree.isOk = true) (admitted : config.admits unit = .ok ())
    (recordStates : Bool) :
    ∃ outcome, unit.check config recordStates = .ok outcome ∧
      unit.scopeTree = .ok outcome.context.tree ∧
      ∀ borrow ∈ outcome.borrows, ∃ extent, borrow.extent? = some extent ∧
        (extent.inside (borrow.referentLifetime outcome.context.tree) = true ∨
          (outcome.context.tree.ShadowsReferent borrow ∧
            (borrow.referentLifetime outcome.context.tree).start ≤ extent.start ∧
            (borrow.referentLifetime outcome.context.tree).stop < extent.stop ∧
            extent.stop ≤ outcome.context.tree.exitPoint borrow.holderScope)) := by
  obtain ⟨outcome, checked, tree, final⟩ := CodeUnit.check_eq_ok built admitted recordStates
  obtain ⟨builder, last, sound, _⟩ := Context.sound_run (Builder.leads_of_scopeTree tree).2
  rw [← final] at sound
  refine ⟨outcome, checked, tree, ?_⟩
  intro borrow membership
  obtain ⟨valid, ended⟩ := sound borrow membership
  obtain ⟨stop, retired, extent⟩ := Borrow.extent?_of_ended ended
  exact ⟨_, extent, valid.inside_or_shadows last retired⟩

/-- A reference takes over the name of what it refers to and is moved to an outer scope. -/
def escapingUnit : CodeUnit := .ofActions "escaping" [
  .declare (.str "r") (.bool false) (.bool false),
  .enter,
  .bind (.str "x") (.bool false) none (.bool false) (.bool false),
  .borrow .shared (.str "x") (.str "x"),
  .move (.str "r") (.str "x"),
  .exit,
  .read (.str "r")]

/-- Nothing is reported, and the borrow outlasts the lifetime of its referent. -/
theorem escaping_borrow_outlasts_lifetime :
    ((escapingUnit.check {} false).toOption.map fun outcome =>
      (outcome.diagnostics.length, outcome.borrows.map fun borrow =>
        (borrow.extent?, borrow.referentLifetime outcome.context.tree))) =
      some (0, [(some ⟨3, 7⟩, ⟨2, 5⟩)]) ∧
    ∃ outcome, escapingUnit.check {} false = .ok outcome ∧
      escapingUnit.scopeTree = .ok outcome.context.tree ∧
      ∀ borrow ∈ outcome.borrows, ∃ extent, borrow.extent? = some extent ∧
        (extent.inside (borrow.referentLifetime outcome.context.tree) = true ∨
          (outcome.context.tree.ShadowsReferent borrow ∧
            (borrow.referentLifetime outcome.context.tree).start ≤ extent.start ∧
            (borrow.referentLifetime outcome.context.tree).stop < extent.stop ∧
            extent.stop ≤ outcome.context.tree.exitPoint borrow.holderScope)) :=
  ⟨by decide, check_borrows_within_lifetime (by decide) rfl false⟩

end LoanCheck
