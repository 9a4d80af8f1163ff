import LoanCheck.Proofs.Check.Extents
import LoanCheck.Proofs.Check.History

/-!
# Which destinations are assigned

The destination of a move or borrow is assigned if its declaration lets it be, whatever it
was bound as since.  Whether a place is mutable is told by the last bind of it.  The two
agree exactly for a place that is deferred or was last bound as it was declared.
-/

namespace LoanCheck

/-- The mutability that a bind gives its place. -/
def Effect.mutable? : Effect → Option Flag
  | .bind _ _ mutable _ => some mutable
  | _ => none

namespace ScopeTree

/-- The mutability of a place before a point, by the last bind of the place or by its
declaration. -/
def mutableInForce (tree : ScopeTree) (point : Point) (place : PlaceId) : Flag :=
  let bound := (tree.lastBefore? (Effect.binds place) point).bind (tree.resolved[·]?)
  (bound.bind fun resolution => resolution.effect.mutable?).getD (tree.freshRecord place).mutable

variable {tree : ScopeTree} {point : Point} {resolution : Resolution} {place : PlaceId}

theorem mutableInForce_of_bound (found : tree.resolved[point]? = some resolution) {target : Target}
    {source : Option Use} {mutable copy : Flag}
    (binds : resolution.effect = .bind target source mutable copy) (same : target.place = place) :
    tree.mutableInForce (point + 1) place = mutable := by
  have bound : resolution.effect.binds place = true := by
    rw [binds]
    exact beq_iff_eq.mpr same
  rw [mutableInForce, lastBefore?_succ found, if_pos bound, Option.bind_some, found,
    Option.bind_some, binds]
  rfl

theorem mutableInForce_of_unbound (found : tree.resolved[point]? = some resolution)
    (unbound : resolution.effect.binds place = false) :
    tree.mutableInForce (point + 1) place = tree.mutableInForce point place := by
  simp only [mutableInForce, lastBefore?_succ found, unbound, Bool.false_eq_true, if_false]

end ScopeTree

section InForce

variable {unit : CodeUnit} {tree : ScopeTree} (built : unit.scopeTree = .ok tree)

include built

/-- A statement gives a place the mutability of a bind, or leaves what it had. -/
theorem Ownership.mutable_after {point : Point} {statement : Statement} {before after : Builder}
    {resolution : Resolution} {rest : List Resolution} {ownership : Ownership}
    (passage : unit.Passage tree point statement before resolution after rest) (place : PlaceId)
    (agrees : (ownership.record tree place).mutable = tree.mutableInForce point place) :
    ((ownership.after tree resolution.effect).record tree place).mutable =
      tree.mutableInForce (point + 1) place := by
  have listed := passage.crossing.listed
  cases bound : resolution.effect.binds place with
  | true =>
      obtain ⟨target, source, mutable, copy, binds, same⟩ := Effect.bind_of_binds bound
      rw [ScopeTree.mutableInForce_of_bound listed binds same, binds, Ownership.after,
        record_rebind, if_pos same.symm]
  | false =>
      rw [ScopeTree.mutableInForce_of_unbound listed bound]
      by_cases fresh : ∃ shadowed rebinds,
          resolution.effect.target? = some (.fresh place shadowed rebinds)
      · obtain ⟨shadowed, rebinds, fresh⟩ := fresh
        have inside := Nat.le_of_lt (List.getElem?_eq_some_iff.mp passage.listed).1
        have undeclared := (passage.crossing.transition.fresh place shadowed rebinds fresh).1
        -- No statement before this one can have bound a place that was not there.
        have never := CodeUnit.lastBefore?_of_undeclared built
          (fun _ => Effect.mentions_of_binds) inside passage.reached undeclared
        rw [ScopeTree.mutableInForce, never]
        exact congrArg Prod.fst (flags_after_of_fresh tree bound fresh)
      · have old : ∀ shadowed rebinds,
            resolution.effect.target? ≠ some (.fresh place shadowed rebinds) :=
          fun shadowed rebinds isFresh => fresh ⟨shadowed, rebinds, isFresh⟩
        have undeclared : ∀ target, resolution.effect = .declare target →
            target.place ≠ place := by
          rintro target declares rfl
          have isFresh := passage.crossing.transition.declares target declares
          cases target with
          | existing kept => cases isFresh
          | fresh new shadowed rebinds => exact old shadowed rebinds (by rw [declares]; rfl)
        rw [← agrees]
        exact congrArg Prod.fst (flags_after_of_other tree bound undeclared old)

theorem CodeUnit.mutable_stateBefore (config : Config) {point : Point} {builder : Builder}
    (inside : point ≤ unit.statements.length) (reached : unit.builderAt point = .ok builder)
    (place : PlaceId) :
    (((Context.ofTree config tree).stateBefore point).ownership.record tree place).mutable =
      tree.mutableInForce point place := by
  apply walk_induction built config (fun point _ state =>
    (state.ownership.record tree place).mutable = tree.mutableInForce point place) rfl _ inside
    reached
  intro point statement before resolution after rest state passage agrees
  rw [Context.advance_ownership]
  exact Ownership.mutable_after built passage place agrees

end InForce

namespace Builder

variable {builder before after : Builder} {point : Point} {name : Name} {key : Key}
  {place : PlaceId}

/-- A destination that can be seen is assigned if it may be, and declared anew otherwise. -/
theorem assign_of_visible {target : Target} (keyed : name.key = .ok key)
    (seen : builder.visible? key = some place)
    (assigned : builder.assign point name = .ok (after, target)) :
    if builder.isAssignable place then target = .existing place else target.declares = true := by
  simp only [assign, bind_eq_ok_iff] at assigned
  obtain ⟨found, keyedSame, chosen⟩ := assigned
  cases (keyOf_eq_ok keyedSame).symm.trans keyed
  simp only [seen] at chosen
  split at chosen
  · next assignable =>
      cases chosen
      rw [if_pos assignable]
  · next fixed =>
      cases chosen
      rw [if_neg fixed]
      rfl

theorem isAssignable_of_declared {found : Place} (known : builder.declared? place = some found) :
    builder.isAssignable place = (found.mutable.isTrue || found.deferred) := by
  obtain ⟨entry, listed, rfl⟩ := Option.map_eq_some_iff.mp known
  simp only [isAssignable, listed]
  rfl

theorem visible?_addItem (builder : Builder) (item : ScopeItem) :
    (builder.addItem item).visible? = builder.visible? := by
  funext key
  simp only [visible?, (alike_addItem builder item).names]
  rfl

theorem step_destination {statement : Statement}
    (destination : statement.action.destination? = some name)
    (stepped : before.step point statement = .ok after) :
    ∃ resolution target middle, after.resolved = before.resolved ++ [resolution] ∧
      resolution.effect.target? = some target ∧
      (before.addItem (.point point)).assign point name = .ok (middle, target) := by
  obtain ⟨action, loc⟩ := statement
  cases action with
  | move dest src =>
      cases destination
      simp only [step, resolve, bind_eq_ok_iff] at stepped
      obtain ⟨_, ⟨use, used, ⟨middle, target⟩, chosen, next, held, taken⟩, same⟩ := stepped
      cases taken
      cases same
      have unchanged := ((assign_targets chosen).hold held).resolved
      exact ⟨_, target, middle, congrArg (· ++ _) unchanged, rfl, chosen⟩
  | borrow kind dest referent =>
      cases destination
      simp only [step, resolve, bind_eq_ok_iff] at stepped
      obtain ⟨_, ⟨use, used, ⟨middle, target⟩, chosen, next, held, taken⟩, same⟩ := stepped
      cases taken
      cases same
      have unchanged := ((assign_targets chosen).hold held).resolved
      exact ⟨_, target, middle, congrArg (· ++ _) unchanged, rfl, chosen⟩
  | _ => cases destination

end Builder

namespace CodeUnit

/-- The target of a move or borrow whose destination can be seen. -/
theorem target_of_destination {unit : CodeUnit} {tree : ScopeTree}
    (built : unit.scopeTree = .ok tree) {point : Point} {statement : Statement}
    {builder : Builder} {name : Name} {key : Key} {place : PlaceId}
    (listed : unit.statements[point]? = some statement)
    (destination : statement.action.destination? = some name)
    (reached : unit.builderAt point = .ok builder) (keyed : name.key = .ok key)
    (seen : builder.visible? key = some place) :
    ∃ resolution target found, tree.resolved[point]? = some resolution ∧
      resolution.effect.target? = some target ∧ tree.places[place]? = some found ∧
      if found.mutable.isTrue || found.deferred then target = .existing place
      else target.declares = true := by
  have inside := (List.getElem?_eq_some_iff.mp listed).1
  obtain ⟨after, rest, reachedNext, remaining, _⟩ := leads_builderAt built inside
  obtain ⟨same, _, again, _, leads⟩ := leads_builderAt built (Nat.le_of_lt inside)
  cases again.symm.trans reached
  have stepped := reachedNext
  rw [builderAt_succ listed, reached] at stepped
  obtain ⟨resolution, target, middle, recorded, targets, assigned⟩ :=
    Builder.step_destination destination stepped
  have isTaken : tree.resolved[point]? = some resolution := by
    rw [remaining, recorded, List.append_assoc, List.singleton_append,
      ← length_resolved (Nat.le_of_lt inside) reached]
    simp
  obtain ⟨declared, known, _⟩ := leads.wellFormed.declared_of_live (Builder.visible?_live seen)
  obtain ⟨found, entry, rfl⟩ := Option.map_eq_some_iff.mp (leads.declared known)
  refine ⟨resolution, target, found, isTaken, targets, entry, ?_⟩
  rw [← Builder.visible?_addItem builder (.point point)] at seen
  have chosen := Builder.assign_of_visible keyed seen assigned
  rw [Builder.isAssignable_of_declared (show (builder.addItem _).declared? place = _ from known)]
    at chosen
  exact chosen

/-- A destination that can be seen is assigned if it was declared mutable or deferred, and its
place is mutable if the last bind says so.  Hence a place that is assigned is one that is
mutable or deferred, and the other way round, exactly if it is deferred or was last bound as it
was declared. -/
theorem assigned_iff_mutable_iff {unit : CodeUnit} {tree : ScopeTree}
    (built : unit.scopeTree = .ok tree) (config : Config) {point : Point} {statement : Statement}
    {builder : Builder} {name : Name} {key : Key} {place : PlaceId}
    (listed : unit.statements[point]? = some statement)
    (destination : statement.action.destination? = some name)
    (reached : unit.builderAt point = .ok builder) (keyed : name.key = .ok key)
    (seen : builder.visible? key = some place) :
    ∃ resolution target found, tree.resolved[point]? = some resolution ∧
      resolution.effect.target? = some target ∧ tree.places[place]? = some found ∧
      let isMutable :=
        ((Context.ofTree config tree).stateBefore point).ownership.isMutable tree place
      (target = .existing place ∨ target.declares = true) ∧
      (target = .existing place ↔ found.mutable.isTrue = true ∨ found.deferred = true) ∧
      isMutable = (tree.mutableInForce point place).isTrue ∧
      ((target = .existing place ↔ isMutable = true ∨ found.deferred = true) ↔
        found.deferred = true ∨
          (tree.mutableInForce point place).isTrue = found.mutable.isTrue) := by
  have inside := Nat.le_of_lt (List.getElem?_eq_some_iff.mp listed).1
  obtain ⟨resolution, target, found, isTaken, targets, entry, chosen⟩ :=
    target_of_destination built listed destination reached keyed seen
  have inForce := congrArg Json.isTrue (mutable_stateBefore built config inside reached place)
  have assigned :
      target = .existing place ↔ found.mutable.isTrue = true ∨ found.deferred = true := by
    rw [← Bool.or_eq_true]
    split at chosen
    · next assignable => exact iff_of_true chosen assignable
    · next fixed =>
        refine iff_of_false ?_ fixed
        rintro rfl
        cases chosen
  refine ⟨resolution, target, found, isTaken, targets, entry, ?_, assigned, inForce, ?_⟩
  · split at chosen
    · exact .inl chosen
    · exact .inr chosen
  · rw [assigned, Ownership.isMutable, inForce]
    generalize found.mutable.isTrue = declared
    generalize (tree.mutableInForce point place).isTrue = bound
    cases found.deferred <;> cases declared <;> cases bound <;> decide

/-- A mutable place is emptied and bound again as one that is not. -/
def boundAgain : CodeUnit := .ofActions "bound again" [
  .bind (.str "x") (.bool true) none (.bool false) (.bool false),
  .consume (.str "x"),
  .bind (.str "x") (.bool false) none (.bool false) (.bool false),
  .bind (.str "y") (.bool false) none (.bool false) (.bool false),
  .move (.str "x") (.str "y")]

/-- The last statement assigns a place that is neither mutable nor deferred. -/
theorem boundAgain_assigned :
    ∃ tree resolution found, boundAgain.scopeTree = .ok tree ∧
      tree.resolved[4]? = some resolution ∧
      resolution.effect.target? = some (.existing 0) ∧ tree.places[0]? = some found ∧
      found.deferred = false ∧
      ((Context.ofTree {} tree).stateBefore 4).ownership.isMutable tree 0 = false := by
  have looked : (boundAgain.scopeTree.toOption.map fun tree =>
      ((tree.places[0]?).map fun found => (found.mutable.isTrue, found.deferred),
        (tree.mutableInForce 4 0).isTrue)) = some (some (true, false), false) := by decide
  have reached : ((boundAgain.builderAt 4).toOption.map fun builder =>
      builder.visible? (.text "x")) = some (some 0) := by decide
  obtain ⟨tree, built, looked⟩ := Option.map_eq_some_iff.mp looked
  obtain ⟨builder, reached, seen⟩ := Option.map_eq_some_iff.mp reached
  rw [toOption_eq_some_iff] at built reached
  obtain ⟨resolution, target, found, isTaken, targets, entry, _, assigned, inForce, _⟩ :=
    assigned_iff_mutable_iff built {} rfl rfl reached rfl seen
  simp only [entry, Option.map_some, Prod.mk.injEq, Option.some.injEq] at looked
  obtain ⟨⟨declared, deferred⟩, bound⟩ := looked
  refine ⟨tree, resolution, found, built, isTaken, ?_, entry, deferred, inForce.trans bound⟩
  rw [targets, assigned.mpr (.inl declared)]

end CodeUnit

end LoanCheck
