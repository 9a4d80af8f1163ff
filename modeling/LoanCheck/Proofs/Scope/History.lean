import LoanCheck.Proofs.Ownership
import LoanCheck.Proofs.Scope.Lookup

/-!
# The statements before a point

Which statement before a point was the last to give a place a value, to take its value or
to bind it is read off the resolved statements.  `OwnershipState.ofHistory` says what is
left of the value by these points, and how one more statement changes that.
-/

namespace LoanCheck

namespace Effect

/-- Whether a statement gives a place a value. -/
def gives (place : PlaceId) : Effect → Bool
  | .bind target _ _ _ => target.place == place
  | .move target _ => target.place == place
  | .borrow _ target _ => target.place == place
  | _ => false

/-- Whether a statement binds a place, under flags of its own. -/
def binds (place : PlaceId) : Effect → Bool
  | .bind target _ _ _ => target.place == place
  | _ => false

/-- Whether a statement takes the value of a place. -/
def takesFrom (place : PlaceId) (effect : Effect) : Bool :=
  effect.takes?.any fun use => use.place == place

theorem target?_of_gives {effect : Effect} {place : PlaceId} (given : effect.gives place = true) :
    ∃ target, effect.target? = some target ∧ target.place = place ∧ effect ≠ .declare target := by
  cases effect with
  | bind target source mutable copy => exact ⟨target, rfl, beq_iff_eq.mp given, nofun⟩
  | move target source => exact ⟨target, rfl, beq_iff_eq.mp given, nofun⟩
  | borrow kind target source => exact ⟨target, rfl, beq_iff_eq.mp given, nofun⟩
  | _ => cases given

theorem declare_of_not_gives {effect : Effect} {place : PlaceId} {target : Target}
    (given : effect.gives place = false) (targets : effect.target? = some target)
    (same : target.place = place) : effect = .declare target := by
  cases effect with
  | declare other =>
      cases targets
      rfl
  | bind other source mutable copy =>
      cases targets
      simp [gives, same] at given
  | move other source =>
      cases targets
      simp [gives, same] at given
  | borrow kind other source =>
      cases targets
      simp [gives, same] at given
  | _ => cases targets

theorem bind_of_binds {effect : Effect} {place : PlaceId} (bound : effect.binds place = true) :
    ∃ target source mutable copy, effect = .bind target source mutable copy ∧
      target.place = place := by
  cases effect with
  | bind target source mutable copy =>
      exact ⟨target, source, mutable, copy, rfl, beq_iff_eq.mp bound⟩
  | _ => cases bound

theorem not_binds_of_not_gives {effect : Effect} {place : PlaceId}
    (given : effect.gives place = false) : effect.binds place = false := by
  cases effect with
  | bind target source mutable copy => exact given
  | _ => rfl

end Effect

namespace OwnershipState

/-- What is left of a value that was last given and last taken at some points, if at all. -/
def ofHistory : Option Point → Option Point → Bool → OwnershipState
  | none, none, _ => .uninitialized
  | none, some _, _ => .movedOut
  | some _, none, _ => .owned
  | some given, some taken, copied => if given < taken && !copied then .movedOut else .owned

theorem ofHistory_of_given {given : Point} {taken : Option Point}
    (notLater : ∀ later, taken = some later → later ≤ given) (copied : Bool) :
    ofHistory (some given) taken copied = .owned := by
  cases taken with
  | none => rfl
  | some later =>
      have order : ¬given < later := Nat.not_lt.mpr (notLater later rfl)
      simp [ofHistory, order]

/-- A value that is taken is gone, unless it may be copied and was there. -/
theorem ofHistory_of_taken {given : Option Point} {point : Point}
    (earlier : ∀ last, given = some last → last < point) (taken : Option Point) (copied : Bool) :
    ofHistory given (some point) copied =
      if copied = true ∧ ofHistory given taken copied = .owned then .owned else .movedOut := by
  cases given with
  | none => cases taken <;> simp [ofHistory]
  | some last =>
      have order := earlier last rfl
      cases copied <;> cases taken <;> simp [ofHistory, order]

theorem ofHistory_eq_uninitialized_iff {given taken : Option Point} {copied : Bool} :
    ofHistory given taken copied = .uninitialized ↔ given = none ∧ taken = none := by
  cases given with
  | none => cases taken <;> simp [ofHistory]
  | some first =>
      cases taken with
      | none => simp [ofHistory]
      | some second =>
          simp only [ofHistory]
          split <;> simp

theorem ofHistory_eq_movedOut_iff {given taken : Option Point} {copied : Bool} :
    ofHistory given taken copied = .movedOut ↔
      ∃ last, taken = some last ∧
        (given = none ∨ ∃ earlier, given = some earlier ∧ earlier < last ∧ copied = false) := by
  cases given with
  | none => cases taken <;> simp [ofHistory]
  | some first => cases taken <;> simp [ofHistory]

end OwnershipState

namespace ScopeTree

/-- The last statement before a point that passes a test. -/
def lastBefore? (tree : ScopeTree) (test : Effect → Bool) : Point → Option Point
  | 0 => none
  | point + 1 =>
      if (tree.resolved[point]?).any fun resolution => test resolution.effect then some point
      else tree.lastBefore? test point

/-- Whether the value of a place may be copied at a point: by the last bind of the place, or by
its declaration. -/
def copyInForce (tree : ScopeTree) (point : Point) (place : PlaceId) : Bool :=
  let origin := (tree.lastBefore? (Effect.binds place) point).getD (tree.declaredAt place)
  (tree.unit.statements[origin]?).any fun statement => statement.action.copyFlag.isTrue

/-- The state of a place that can be named, by the statements before a point. -/
def stateByHistory (tree : ScopeTree) (point : Point) (place : PlaceId) : OwnershipState :=
  .ofHistory (tree.lastBefore? (Effect.gives place) point)
    (tree.lastBefore? (Effect.takesFrom place) point) (tree.copyInForce point place)

section History

variable {tree : ScopeTree} {test : Effect → Bool} {point last : Point} {resolution : Resolution}
  {place : PlaceId}

theorem lastBefore?_succ (found : tree.resolved[point]? = some resolution) :
    tree.lastBefore? test (point + 1) =
      if test resolution.effect then some point else tree.lastBefore? test point := by
  rw [lastBefore?, found]
  rfl

theorem lastBefore?_eq_some_iff :
    tree.lastBefore? test point = some last ↔
      last < point ∧
        (∃ resolution, tree.resolved[last]? = some resolution ∧ test resolution.effect = true) ∧
        ∀ later resolution, last < later → later < point →
          tree.resolved[later]? = some resolution → test resolution.effect = false := by
  induction point with
  | zero => simp [lastBefore?]
  | succ point inductionHypothesis =>
      rw [lastBefore?]
      split
      · next passes =>
          obtain ⟨resolution, found, holds⟩ := (Option.any_eq_true _ _).mp passes
          constructor
          · rintro ⟨⟩
            refine ⟨Nat.lt_succ_self last, ⟨resolution, found, holds⟩, ?_⟩
            intro later _ after before
            exact absurd after (Nat.not_lt.mpr (Nat.le_of_lt_succ before))
          · rintro ⟨inside, _, fails⟩
            rcases Nat.lt_succ_iff_lt_or_eq.mp inside with lower | rfl
            · rw [fails point resolution lower (Nat.lt_succ_self point) found] at holds
              cases holds
            · rfl
      · next fails =>
          rw [inductionHypothesis]
          constructor
          · rintro ⟨inside, known, between⟩
            refine ⟨Nat.lt_succ_of_lt inside, known, ?_⟩
            intro later resolution after before found
            rcases Nat.lt_succ_iff_lt_or_eq.mp before with lower | rfl
            · exact between later resolution after lower found
            · rw [found, Option.any_some, Bool.not_eq_true] at fails
              exact fails
          · rintro ⟨inside, ⟨resolution, found, holds⟩, between⟩
            rcases Nat.lt_succ_iff_lt_or_eq.mp inside with lower | rfl
            · refine ⟨lower, ⟨resolution, found, holds⟩, ?_⟩
              intro later other after before
              exact between later other after (Nat.lt_succ_of_lt before)
            · rw [found, Option.any_some] at fails
              exact absurd holds fails

theorem lastBefore?_lt (found : tree.lastBefore? test point = some last) : last < point :=
  (lastBefore?_eq_some_iff.mp found).1

theorem copyInForce_succ (found : tree.resolved[point]? = some resolution)
    (unbound : resolution.effect.binds place = false) :
    tree.copyInForce (point + 1) place = tree.copyInForce point place := by
  simp only [copyInForce, lastBefore?_succ found, unbound, Bool.false_eq_true, if_false]

theorem stateByHistory_of_given (found : tree.resolved[point]? = some resolution)
    (given : resolution.effect.gives place = true) :
    tree.stateByHistory (point + 1) place = .owned := by
  rw [stateByHistory, lastBefore?_succ found, if_pos given]
  apply OwnershipState.ofHistory_of_given
  intro later taken
  exact Nat.le_of_lt_succ (lastBefore?_lt taken)

theorem stateByHistory_of_taken (found : tree.resolved[point]? = some resolution)
    (given : resolution.effect.gives place = false)
    (taken : resolution.effect.takesFrom place = true) :
    tree.stateByHistory (point + 1) place =
      if tree.copyInForce point place = true ∧ tree.stateByHistory point place = .owned then .owned
      else .movedOut := by
  rw [stateByHistory, lastBefore?_succ found, lastBefore?_succ found, given, taken,
    copyInForce_succ found (Effect.not_binds_of_not_gives given)]
  apply OwnershipState.ofHistory_of_taken
  intro last before
  exact lastBefore?_lt before

theorem stateByHistory_of_other (found : tree.resolved[point]? = some resolution)
    (given : resolution.effect.gives place = false)
    (taken : resolution.effect.takesFrom place = false) :
    tree.stateByHistory (point + 1) place = tree.stateByHistory point place := by
  rw [stateByHistory, lastBefore?_succ found, lastBefore?_succ found, given, taken,
    copyInForce_succ found (Effect.not_binds_of_not_gives given)]
  rfl

end History

end ScopeTree

/-- A place is the target or the operand of a statement. -/
def Effect.Mentions (place : PlaceId) (effect : Effect) : Prop :=
  (∃ target, effect.target? = some target ∧ target.place = place) ∨
    ∃ use, effect.source? = some use ∧ use.place = place

theorem Effect.mentions_of_gives {effect : Effect} {place : PlaceId}
    (given : effect.gives place = true) : effect.Mentions place := by
  obtain ⟨target, targets, same, _⟩ := target?_of_gives given
  exact .inl ⟨target, targets, same⟩

theorem Effect.mentions_of_takesFrom {effect : Effect} {place : PlaceId}
    (taken : effect.takesFrom place = true) : effect.Mentions place := by
  obtain ⟨use, takes, same⟩ := (Option.any_eq_true _ _).mp taken
  exact .inr ⟨use, source?_of_takes? takes, beq_iff_eq.mp same⟩

theorem Effect.mentions_of_binds {effect : Effect} {place : PlaceId}
    (bound : effect.binds place = true) : effect.Mentions place := by
  obtain ⟨target, source, mutable, copy, rfl, same⟩ := bind_of_binds bound
  exact .inl ⟨target, rfl, same⟩

namespace CodeUnit

variable {unit : CodeUnit} {tree : ScopeTree} {point : Point} {builder : Builder}

theorem Passage.declared_of_mentions {statement : Statement} {before after : Builder}
    {resolution : Resolution} {rest : List Resolution} {place : PlaceId}
    (passage : Passage unit tree point statement before resolution after rest)
    (mentions : resolution.effect.Mentions place) :
    ∃ found, after.declared? place = some found := by
  rcases mentions with ⟨target, targets, rfl⟩ | ⟨use, source, rfl⟩
  · have live := passage.crossing.transition.target_live target targets
    obtain ⟨found, known, _⟩ := passage.crossing.leads_after.wellFormed.declared_of_live live
    exact ⟨found, known⟩
  · obtain ⟨found, known⟩ := passage.declared_source source
    exact ⟨found, passage.crossing.transition.declarations use.place found known⟩

/-- Statements mention only places that are declared by then. -/
theorem lastBefore?_of_undeclared (built : unit.scopeTree = .ok tree) {place : PlaceId}
    {test : Effect → Bool} (mentions : ∀ effect, test effect = true → effect.Mentions place)
    (inside : point ≤ unit.statements.length) (reached : unit.builderAt point = .ok builder)
    (undeclared : builder.declared? place = none) : tree.lastBefore? test point = none := by
  induction point generalizing builder with
  | zero => rfl
  | succ point inductionHypothesis =>
      have bound : point < tree.resolved.length := by
        rw [length_of_scopeTree built]
        exact inside
      have listed := List.getElem?_eq_getElem bound
      obtain ⟨statement, before, after, rest, passage⟩ := passage_at built listed
      cases passage.reached_next.symm.trans reached
      have unmentioned : test (tree.resolved[point]).effect = false := by
        by_contra holds
        obtain ⟨found, known⟩ := passage.declared_of_mentions
          (mentions _ (Bool.not_eq_false _ |>.mp holds))
        rw [undeclared] at known
        cases known
      rw [ScopeTree.lastBefore?_succ listed, unmentioned]
      apply inductionHypothesis (Nat.le_of_succ_le inside) passage.reached
      cases earlier : before.declared? place with
      | none => rfl
      | some found =>
          rw [passage.crossing.transition.declarations place found earlier] at undeclared
          cases undeclared

end CodeUnit

end LoanCheck
