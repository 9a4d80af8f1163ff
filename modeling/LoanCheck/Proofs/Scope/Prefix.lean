import LoanCheck.Proofs.Scope.Joined

/-!
# The scopes of the beginning of a unit

Where the markers of the first statements of a unit are balanced, these statements have a scope
tree of their own.  It is found at the beginning of the tree of the whole unit: the same places
are declared in the same scopes, and the scopes that have ended list the same places.  Only what
a place holds may be known no sooner than by later statements.
-/

namespace LoanCheck

/-- How many scopes are open after a statement, unless it ends one that is not open. -/
def Action.depthAfter? (depth : Nat) : Action → Option Nat
  | .enter => some (depth + 1)
  | .exit =>
      match depth with
      | 0 => none
      | outside + 1 => some outside
  | _ => some depth

/-- Every scope that ends has been entered, and every scope that is entered ends. -/
def CodeUnit.Balanced (unit : CodeUnit) : Prop :=
  unit.statements.foldlM (fun depth statement => statement.action.depthAfter? depth) 0 = some 0

instance (unit : CodeUnit) : Decidable unit.Balanced :=
  inferInstanceAs (Decidable (_ = some 0))

namespace Builder

theorem Extends.openScopes {before after : Builder} {point : Point} {copy : Flag}
    (extended : Extends before point copy after) : after.openScopes = before.openScopes := by
  cases extended with
  | kept alike => exact alike.openScopes
  | declared name key mutable deferred keyed alike => exact alike.openScopes

/-- The builder keeps count of the open scopes. -/
theorem depthAfter?_step {builder next : Builder} {point : Point} {statement : Statement}
    (stepped : builder.step point statement = .ok next) :
    statement.action.depthAfter? builder.outer.length = some next.outer.length := by
  obtain ⟨action, loc⟩ := statement
  cases action with
  | enter =>
      cases stepped
      rfl
  | exit =>
      obtain ⟨scopes, _⟩ := exit_cases stepped
      have outer : builder.outer = next.openScopes := (List.cons.inj scopes).2
      rw [outer]
      rfl
  | _ =>
      rw [Builder.step, bind_eq_ok_iff] at stepped
      obtain ⟨⟨middle, effect⟩, resolved, same⟩ := stepped
      cases same
      have scopes := (resolve_targets resolved).1.extended.openScopes
      exact congrArg (some ·.tail.length) scopes.symm

theorem depthAfter?_run {builder next : Builder} {point : Point} {statements : List Statement}
    (taken : builder.run point statements = .ok next) :
    statements.foldlM (fun depth statement => statement.action.depthAfter? depth)
      builder.outer.length = some next.outer.length := by
  induction statements generalizing builder point with
  | nil =>
      cases taken
      rfl
  | cons statement rest inductionHypothesis =>
      rw [Builder.run, bind_eq_ok_iff] at taken
      obtain ⟨middle, stepped, taken⟩ := taken
      rw [List.foldlM_cons, depthAfter?_step stepped]
      exact inductionHypothesis taken

/-- A scope that has ended stays so and gets no more places. -/
theorem placesIn_of_step {builder next : Builder} {point : Point} {statement : Statement}
    (wellFormed : builder.WellFormed point) (stepped : builder.step point statement = .ok next)
    {scope : ScopeId} (known : scope < builder.scopes.length)
    (ended : scope ∉ builder.openScopes) :
    scope < next.scopes.length ∧ scope ∉ next.openScopes ∧
      next.placesIn scope = builder.placesIn scope := by
  cases (step_resolves stepped).1 with
  | entered =>
      rw [length_scopes_enter, openScopes_enter, placesIn_enter, List.mem_cons, not_or]
      exact ⟨Nat.lt_succ_of_lt known, ⟨Nat.ne_of_lt known, ended⟩, rfl⟩
  | left exits =>
      obtain ⟨scopes, _, _, count, _⟩ := exit_cases exits
      rw [count, placesIn_exit exits]
      refine ⟨known, fun isOpen => ended ?_, rfl⟩
      rw [scopes]
      exact List.mem_cons_of_mem _ isOpen
  | inside extended closed =>
      rw [extended.openScopes]
      cases extended with
      | kept alike =>
          rw [alike.scopeCount, alike.lists]
          exact ⟨known, ended, rfl⟩
      | declared name key mutable deferred keyed alike =>
          have other : scope ≠ builder.current := by
            rintro rfl
            exact ended List.mem_cons_self
          rw [alike.scopeCount, alike.lists, length_scopes_declare,
            placesIn_declare _ _ _ _ _ _ _ _ wellFormed.current_lt, if_neg other]
          exact ⟨known, ended, rfl⟩

theorem placesIn_of_run {builder next : Builder} {point : Point} {statements : List Statement}
    (wellFormed : builder.WellFormed point) (taken : builder.run point statements = .ok next)
    {scope : ScopeId} (known : scope < builder.scopes.length)
    (ended : scope ∉ builder.openScopes) : next.placesIn scope = builder.placesIn scope := by
  induction statements generalizing builder point with
  | nil =>
      cases taken
      rfl
  | cons statement rest inductionHypothesis =>
      rw [Builder.run, bind_eq_ok_iff] at taken
      obtain ⟨middle, stepped, taken⟩ := taken
      obtain ⟨_, _, _, _, _, later⟩ := step_cases wellFormed stepped
      obtain ⟨stillKnown, stillEnded, same⟩ := placesIn_of_step wellFormed stepped known ended
      exact (inductionHypothesis later taken stillKnown stillEnded).trans same

end Builder

/-- A tree whose places, inner scopes and resolutions are the first ones of another tree, where
places may hold references that it does not know of. -/
structure ScopeTree.Begins (early tree : ScopeTree) : Prop where
  declared : ∀ place, place < early.places.length →
    (tree.places[place]?).map Place.declaration = (early.places[place]?).map Place.declaration
  references : ∀ place, early.holdsReference place = true → tree.holdsReference place = true
  lists : ∀ scope, scope ≠ rootId → scope < early.scopes.length →
    tree.placesOf scope = early.placesOf scope
  resolved : ∃ rest, tree.resolved = early.resolved ++ rest

theorem ScopeTree.Begins.of_finish {part whole : CodeUnit} {early tree : ScopeTree}
    {middle last : Builder} {rest : List Statement} {resolved : List Resolution}
    (leads : Builder.Leads tree part.endPoint middle resolved)
    (finished : middle.finish part = .ok early)
    (taken : middle.run part.endPoint rest = .ok last)
    (finishedWhole : last.finish whole = .ok tree)
    (listed : tree.resolved = middle.resolved ++ resolved) : early.Begins tree := by
  obtain ⟨scopes, _, places, resolvedEarly, earlyScopes⟩ := Builder.finish_cases finished
  refine ⟨?_, ?_, ?_, ?_⟩
  · intro place inside
    rw [places] at inside ⊢
    rw [List.getElem?_eq_getElem inside]
    exact leads.declared (congrArg (Option.map _) (List.getElem?_eq_getElem inside))
  · intro place reference
    apply leads.holdsReference
    rw [holdsReference, places] at reference
    rw [Builder.holding?]
    split at reference
    · next found known =>
        rw [known]
        exact beq_iff_eq.mp reference
    · cases reference
  · intro scope inner known
    rw [earlyScopes, List.length_modify] at known
    rw [Builder.placesOf_of_finish finishedWhole, Builder.placesOf_of_finish finished]
    apply Builder.placesIn_of_run leads.wellFormed taken known
    rw [scopes, List.mem_singleton, Builder.current_of_finish leads.wellFormed finished]
    exact inner
  · rw [resolvedEarly]
    exact ⟨resolved, listed⟩

/-- The first statements of a unit that has a scope tree have one if their markers are balanced. -/
theorem CodeUnit.begins_of_balanced {whole part : CodeUnit} {rest : List Statement}
    {tree : ScopeTree} (built : whole.scopeTree = .ok tree)
    (inRow : whole.statements = part.statements ++ rest) (balanced : part.Balanced) :
    ∃ early, part.scopeTree = .ok early ∧ early.Begins tree := by
  have inside : part.endPoint ≤ whole.statements.length := by
    rw [inRow, List.length_append]
    exact Nat.le_add_right _ _
  obtain ⟨middle, resolved, reached, listed, leads⟩ := leads_builderAt built inside
  have first : Builder.run {} 0 part.statements = .ok middle := by
    rw [builderAt, inRow, endPoint, List.take_left] at reached
    exact reached
  obtain ⟨early, finished⟩ : ∃ early, middle.finish part = .ok early := by
    have none : middle.outer = [] :=
      List.eq_nil_of_length_eq_zero
        (Option.some.inj ((Builder.depthAfter?_run first).symm.trans balanced))
    rw [Builder.finish, none]
    exact ⟨_, rfl⟩
  rw [scopeTree, inRow, Builder.run_append, first] at built
  obtain ⟨last, taken, finishedWhole⟩ := bind_eq_ok_iff.mp built
  rw [Nat.zero_add] at taken
  exact ⟨early, bind_eq_ok_iff.mpr ⟨middle, first, finished⟩,
    .of_finish leads finished taken finishedWhole listed⟩

namespace Builder

/-- What a place is known to hold, it holds in the tree. -/
theorem Leads.holdsReference_eq {tree : ScopeTree} {point : Point} {builder : Builder}
    {resolved : List Resolution} {place : PlaceId} {holding : Holding}
    (leads : Leads tree point builder resolved) (held : builder.holding? place = some holding) :
    tree.holdsReference place = (holding == .reference) := by
  induction leads with
  | finish wellFormed finished =>
      obtain ⟨found, known, holds⟩ := Option.bind_eq_some_iff.mp held
      rw [ScopeTree.holdsReference, (finish_cases finished).2.2.1, known]
      simp only [holds]
      cases holding <;> rfl
  | step wellFormed at_point transition leads inductionHypothesis =>
      exact inductionHypothesis (transition.holdings place holding held)

section Given

variable {before middle after : Builder} {point : Point} {loc : Span} {target : Target}
  {holding : Option Holding}

theorem isSome_holding?_of_hold (wellFormed : before.WellFormed point)
    (placed : Placed before point middle target)
    (held : middle.hold point loc target.place holding = .ok after)
    (given : holding.isSome = true) : (after.holding? target.place).isSome = true := by
  obtain ⟨found, known, _⟩ := (placed.wellFormed_after wellFormed).declared_of_live
    (placed.target_live wellFormed)
  rw [holding?_hold held, if_pos ⟨rfl, known ▸ rfl⟩, Option.isSome_or, given, Bool.true_or]

/-- It is known what a place holds that is given a new value or reference, or what another place
is known to hold. -/
theorem isSome_holding?_of_resolve {action : Action} {effect : Effect}
    (wellFormed : before.WellFormed point)
    (resolved : before.resolve point loc action = .ok (after, effect))
    (given : effect.target? = some target) (assigns : effect ≠ .declare target)
    (passes : ∀ source, effect.passes? = some (target, source) →
      (before.holding? source.place).isSome = true) :
    (after.holding? target.place).isSome = true := by
  cases action with
  | bind name mutable source shadow copy =>
      simp only [resolve, bind_eq_ok_iff] at resolved
      obtain ⟨uses, used, ⟨middle, found⟩, chosen, next, held, same⟩ := resolved
      cases same
      cases given
      apply isSome_holding?_of_hold wellFormed (bindTarget_cases chosen).1 held
      cases uses with
      | none => rfl
      | some use => exact passes use rfl
  | declare name mutable copy =>
      simp only [resolve, bind_eq_ok_iff] at resolved
      obtain ⟨key, _, same⟩ := resolved
      cases same
      cases given
      exact absurd rfl assigns
  | move dest src =>
      simp only [resolve, bind_eq_ok_iff] at resolved
      obtain ⟨use, used, ⟨middle, found⟩, chosen, next, held, same⟩ := resolved
      cases same
      cases given
      obtain ⟨placed, holdings, _⟩ := assign_cases chosen
      apply isSome_holding?_of_hold wellFormed placed held
      rw [holdings]
      exact passes use rfl
  | borrow kind dest referent =>
      simp only [resolve, bind_eq_ok_iff] at resolved
      obtain ⟨use, used, ⟨middle, found⟩, chosen, next, held, same⟩ := resolved
      cases same
      cases given
      exact isSome_holding?_of_hold wellFormed (assign_cases chosen).1 held rfl
  | write place | read place | consume place =>
      simp only [resolve, bind_eq_ok_iff] at resolved
      obtain ⟨use, used, same⟩ := resolved
      cases same
      cases given
  | enter | exit =>
      cases resolved
      cases given

end Given

end Builder

namespace CodeUnit.Passage

variable {unit : CodeUnit} {tree : ScopeTree} {point : Point} {statement : Statement}
  {before after : Builder} {resolution : Resolution} {rest : List Resolution}
  (passage : Passage unit tree point statement before resolution after rest)

include passage

theorem stepped : before.step point statement = .ok after := by
  have next := passage.reached_next
  rw [builderAt_succ passage.listed, passage.reached] at next
  exact next

theorem recorded (built : unit.scopeTree = .ok tree) :
    after.resolved = before.resolved ++ [resolution] := by
  have inside := (List.getElem?_eq_some_iff.mp passage.listed).1
  obtain ⟨_, taken, recorded, _⟩ := Builder.step_resolves passage.stepped
  obtain ⟨same, later, reached, split, _⟩ := leads_builderAt built inside
  cases reached.symm.trans passage.reached_next
  have isTaken : tree.resolved[point]? = some taken := by
    rw [split, recorded, List.append_assoc, List.singleton_append,
      ← length_resolved (Nat.le_of_lt inside) passage.reached]
    simp
  cases isTaken.symm.trans passage.crossing.listed
  exact recorded

/-- It is known what the target of a statement holds if it is known of what is passed on. -/
theorem isSome_holding? (built : unit.scopeTree = .ok tree) {target : Target}
    (given : resolution.effect.target? = some target)
    (assigns : resolution.effect ≠ .declare target)
    (passes : ∀ source, resolution.effect.passes? = some (target, source) →
      (before.holding? source.place).isSome = true) :
    (after.holding? target.place).isSome = true := by
  have recorded := passage.recorded built
  have stepped := passage.stepped
  have wellFormed := passage.crossing.leads_before.wellFormed
  obtain ⟨action, loc⟩ := statement
  cases action with
  | enter =>
      cases stepped
      have same := List.singleton_inj.mp (List.append_cancel_left recorded)
      rw [← same] at given
      cases given
  | exit =>
      have same := List.singleton_inj.mp
        (List.append_cancel_left ((Builder.exit_cases stepped).2.2.2.2.symm.trans recorded))
      rw [← same] at given
      cases given
  | _ =>
      rw [Builder.step, bind_eq_ok_iff] at stepped
      obtain ⟨⟨middle, effect⟩, resolved, same⟩ := stepped
      cases same
      have items := Builder.alike_addItem before (.point point)
      have unchanged := (Builder.resolve_targets resolved).1.resolved
      have sameEffect : effect = resolution.effect := by
        rw [Builder.record, unchanged] at recorded
        exact congrArg Resolution.effect (List.singleton_inj.mp (List.append_cancel_left recorded))
      subst sameEffect
      -- Recording the effect does not change what the places hold.
      have held := Builder.isSome_holding?_of_resolve (wellFormed.of_alike items) resolved given
        assigns passes
      exact held

end CodeUnit.Passage

end LoanCheck
