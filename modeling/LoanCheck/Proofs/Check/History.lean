import LoanCheck.Proofs.Check.Holders
import LoanCheck.Proofs.Check.Reports
import LoanCheck.Proofs.Scope.History

/-!
# Ownership by history

Whether a place has its value can be read off the statements before a point: which of them
gave it one last, which took one last, and whether it may be copied.  The analysis says so
of every operand, and of nothing else.
-/

namespace LoanCheck

/-- Whether a place is mutable, and whether its value may be copied. -/
def OwnershipRecord.flags (record : OwnershipRecord) : Flag × Flag :=
  (record.mutable, record.copy)

namespace Ownership

variable (tree : ScopeTree) {ownership : Ownership} {place : PlaceId}

theorem record_makeRoom_of_other {target : Target} (other : target.place ≠ place)
    (notShadowed : target.shadowed? ≠ some place) :
    (ownership.makeRoom tree target).record tree place = ownership.record tree place := by
  cases target with
  | existing kept => rfl
  | fresh new shadowed rebinds =>
      have old : place ≠ new := Ne.symm other
      cases shadowed with
      | none => simp [makeRoom, declareOver, old]
      | some hidden =>
          have stays : place ≠ hidden := by
            rintro rfl
            exact notShadowed rfl
          simp [makeRoom, declareOver, old, stays]

/-- A place that is not given anything, hidden or left can only lose its value. -/
theorem record_after_of_other {effect : Effect}
    (other : ∀ target, effect.target? = some target →
      target.place ≠ place ∧ target.shadowed? ≠ some place)
    (stays : ∀ scope, effect.closes? = some scope → place ∉ tree.placesOf scope) :
    (ownership.after tree effect).record tree place =
      (effect.takes?.elim ownership (ownership.taken tree)).record tree place := by
  cases effect with
  | enter | write | read | consume => rfl
  | exit scope =>
      have kept : place ∉ (ownership.remaining tree scope).reverse := by
        simp [remaining, stays scope rfl]
      rw [after, leave, record_foldl_drop, if_neg kept]
      rfl
  | bind target source mutable copy =>
      obtain ⟨different, notShadowed⟩ := other target rfl
      rw [after, record_rebind, if_neg (Ne.symm different),
        record_makeRoom_of_other tree different notShadowed]
      rfl
  | declare target =>
      obtain ⟨different, notShadowed⟩ := other target rfl
      change (ownership.makeRoom tree (.fresh target.place target.shadowed? false)).record tree
        place = _
      exact record_makeRoom_of_other tree different notShadowed
  | move target source =>
      obtain ⟨different, notShadowed⟩ := other target rfl
      rw [after, record_fill, if_neg (Ne.symm different),
        record_makeRoom_of_other tree different notShadowed]
      rfl
  | borrow kind target source =>
      obtain ⟨different, notShadowed⟩ := other target rfl
      rw [after, record_fill, if_neg (Ne.symm different),
        record_makeRoom_of_other tree different notShadowed]
      rfl

theorem flags_taken (source : Use) :
    ((ownership.taken tree source).record tree place).flags =
      (ownership.record tree place).flags := by
  unfold taken
  split
  · rfl
  · rw [record_moveOut]
    split
    · next moved =>
        rw [moved.1]
        rfl
    · rfl

theorem flags_fill (filled : PlaceId) :
    ((ownership.fill tree filled).record tree place).flags =
      (ownership.record tree place).flags := by
  rw [record_fill]
  split
  · next same =>
      rw [same]
      rfl
  · rfl

theorem flags_declareOver {fresh : PlaceId} (old : place ≠ fresh) (shadowed : Option PlaceId) :
    ((ownership.declareOver tree fresh shadowed).record tree place).flags =
      (ownership.record tree place).flags := by
  rw [declareOver, record_declare, if_neg old]
  cases shadowed with
  | none => rfl
  | some hidden =>
      rw [Option.elim_some, record_drop]
      split
      · next same =>
          rw [same]
          rfl
      · rfl

theorem flags_makeRoom {target : Target}
    (old : ∀ shadowed rebinds, target ≠ .fresh place shadowed rebinds) :
    ((ownership.makeRoom tree target).record tree place).flags =
      (ownership.record tree place).flags := by
  cases target with
  | existing kept => rfl
  | fresh new shadowed rebinds =>
      apply flags_declareOver
      rintro rfl
      exact old shadowed rebinds rfl

/-- Only a bind changes the flags of a place that is there. -/
theorem flags_after_of_other {effect : Effect} (unbound : effect.binds place = false)
    (undeclared : ∀ target, effect = .declare target → target.place ≠ place)
    (old : ∀ shadowed rebinds, effect.target? ≠ some (.fresh place shadowed rebinds)) :
    ((ownership.after tree effect).record tree place).flags =
      (ownership.record tree place).flags := by
  have room : ∀ {target}, effect.target? = some target →
      ∀ shadowed rebinds, target ≠ .fresh place shadowed rebinds := by
    rintro target targets shadowed rebinds rfl
    exact old shadowed rebinds targets
  cases effect with
  | enter | write | read => rfl
  | exit scope =>
      rw [after, leave, record_foldl_drop]
      split <;> rfl
  | bind target source mutable copy =>
      rw [after, record_rebind, if_neg (Ne.symm (beq_eq_false_iff_ne.mp unbound)),
        flags_makeRoom tree (room rfl)]
      cases source with
      | none => rfl
      | some use => exact flags_taken tree use
  | declare target => exact flags_declareOver tree (Ne.symm (undeclared target rfl)) _
  | move target source =>
      rw [after, flags_fill, flags_makeRoom tree (room rfl)]
      exact flags_taken tree source
  | borrow kind target source =>
      rw [after, flags_fill, flags_makeRoom tree (room rfl)]
  | consume source => exact flags_taken tree source

theorem flags_after_of_fresh {effect : Effect} (unbound : effect.binds place = false)
    {shadowed : Option PlaceId} {rebinds : Bool}
    (fresh : effect.target? = some (.fresh place shadowed rebinds)) :
    ((ownership.after tree effect).record tree place).flags = (tree.freshRecord place).flags := by
  have declared : ∀ prior : Ownership,
      (prior.declareOver tree place shadowed).record tree place = tree.freshRecord place := by
    intro prior
    rw [declareOver, record_declare, if_pos rfl]
  cases effect with
  | bind target source mutable copy =>
      cases fresh
      simp [Effect.binds, Target.place] at unbound
  | declare target =>
      cases fresh
      exact congrArg OwnershipRecord.flags (declared ownership)
  | move target source =>
      cases fresh
      rw [after, flags_fill]
      exact congrArg OwnershipRecord.flags (declared _)
  | borrow kind target source =>
      cases fresh
      rw [after, flags_fill]
      exact congrArg OwnershipRecord.flags (declared _)
  | _ => cases fresh

end Ownership

namespace Ownership

/-- The records of the places that can be named say what the statements before a point say. -/
structure Historic (tree : ScopeTree) (point : Point) (builder : Builder)
    (ownership : Ownership) : Prop where
  states : ∀ place, builder.Live place →
    ownership.stateOf tree place = tree.stateByHistory point place
  copies : ∀ place, builder.Live place →
    (ownership.record tree place).copy.isTrue = tree.copyInForce point place

namespace Historic

variable {unit : CodeUnit} {tree : ScopeTree} {point : Point} {statement : Statement}
  {before after : Builder} {resolution : Resolution} {rest : List Resolution}
  {ownership : Ownership} {place : PlaceId}
  (passage : unit.Passage tree point statement before resolution after rest)
  (historic : ownership.Historic tree point before)

include passage

/-- What a bind leaves is told by its own flag. -/
theorem copy_of_bound (same : tree.unit = unit) (bound : resolution.effect.binds place = true) :
    ((ownership.after tree resolution.effect).record tree place).copy.isTrue =
      tree.copyInForce (point + 1) place := by
  have origin : tree.lastBefore? (Effect.binds place) (point + 1) = some point := by
    rw [ScopeTree.lastBefore?_succ passage.crossing.listed, if_pos bound]
  obtain ⟨target, source, mutable, copy, binds, isPlace⟩ := Effect.bind_of_binds bound
  have flag := passage.resolves.copies target source mutable copy binds
  simp only [ScopeTree.copyInForce, origin, Option.getD_some, same, passage.listed,
    Option.any_some]
  rw [binds, Ownership.after, record_rebind, if_pos isPlace.symm, flag]

/-- A place that can be named is not declared anew. -/
theorem ne_fresh (live : before.Live place) (shadowed : Option PlaceId) (rebinds : Bool) :
    resolution.effect.target? ≠ some (.fresh place shadowed rebinds) := by
  intro fresh
  obtain ⟨found, known, _⟩ := passage.crossing.leads_before.wellFormed.declared_of_live live
  rw [(passage.crossing.transition.fresh place shadowed rebinds fresh).1] at known
  cases known

theorem ne_declared (live : before.Live place) {target : Target}
    (declares : resolution.effect = .declare target) : target.place ≠ place := by
  have isFresh := passage.crossing.transition.declares target declares
  rintro rfl
  cases target with
  | existing kept => cases isFresh
  | fresh new shadowed rebinds =>
      apply ne_fresh passage live shadowed rebinds
      rw [declares]
      rfl

/-- A new place may be copied if its declaration says so. -/
theorem copy_of_fresh (built : unit.scopeTree = .ok tree)
    (unbound : resolution.effect.binds place = false) {shadowed : Option PlaceId} {rebinds : Bool}
    (fresh : resolution.effect.target? = some (.fresh place shadowed rebinds)) :
    ((ownership.after tree resolution.effect).record tree place).copy.isTrue =
      tree.copyInForce (point + 1) place := by
  have same := (Builder.leads_of_scopeTree built).1
  have inside := Nat.le_of_lt (List.getElem?_eq_some_iff.mp passage.listed).1
  obtain ⟨undeclared, found, known, at_point⟩ :=
    passage.crossing.transition.fresh place shadowed rebinds fresh
  have flag : found.copy = statement.action.copyFlag := by
    rcases passage.names.declared_cases known with old | ⟨_, _, same, _⟩
    · rw [undeclared] at old
      cases old
    · exact same
  have unbound_before := CodeUnit.lastBefore?_of_undeclared built
    (fun _ => Effect.mentions_of_binds) inside passage.reached undeclared
  have record : (tree.freshRecord place).copy = found.copy := by
    obtain ⟨entry, listed, rfl⟩ :=
      Option.map_eq_some_iff.mp (passage.crossing.leads_after.declared known)
    simp only [ScopeTree.freshRecord, listed]
    rfl
  have declared : ((ownership.after tree resolution.effect).record tree place).copy =
      (tree.freshRecord place).copy :=
    congrArg Prod.snd (flags_after_of_fresh tree unbound fresh)
  rw [declared, record, flag, ScopeTree.copyInForce_succ passage.crossing.listed unbound]
  simp only [ScopeTree.copyInForce, unbound_before, Option.getD_none,
    passage.crossing.leads_after.declaredAt_eq known, at_point, same, passage.listed,
    Option.any_some]

include historic

theorem copies_after (built : unit.scopeTree = .ok tree) (live : after.Live place) :
    ((ownership.after tree resolution.effect).record tree place).copy.isTrue =
      tree.copyInForce (point + 1) place := by
  have same := (Builder.leads_of_scopeTree built).1
  cases bound : resolution.effect.binds place with
  | true => exact copy_of_bound passage same bound
  | false =>
      rcases passage.crossing.transition.live_before place live with
        ⟨old, _, _⟩ | ⟨shadowed, rebinds, fresh⟩
      · have kept : ((ownership.after tree resolution.effect).record tree place).copy =
            (ownership.record tree place).copy :=
          congrArg Prod.snd (flags_after_of_other tree bound (fun _ => ne_declared passage old)
            (ne_fresh passage old))
        rw [kept, ScopeTree.copyInForce_succ passage.crossing.listed bound]
        exact historic.copies place old
      · exact copy_of_fresh passage built bound fresh

/-- The state of a place that could be named before and is not given anything. -/
theorem state_of_kept (old : before.Live place)
    (notShadowed : ∀ target, resolution.effect.target? = some target →
      target.shadowed? ≠ some place)
    (notClosed : ∀ scope, resolution.effect.closes? = some scope →
      place ∉ before.placesIn scope)
    (given : resolution.effect.gives place = false) :
    (ownership.after tree resolution.effect).stateOf tree place =
      tree.stateByHistory (point + 1) place := by
  have listed := passage.crossing.listed
  have other : ∀ target, resolution.effect.target? = some target →
      target.place ≠ place ∧ target.shadowed? ≠ some place := by
    intro target targets
    refine ⟨?_, notShadowed target targets⟩
    intro isPlace
    exact ne_declared passage old (Effect.declare_of_not_gives given targets isPlace) isPlace
  have stays : ∀ scope, resolution.effect.closes? = some scope →
      place ∉ tree.placesOf scope := by
    intro scope closes inScope
    have leads := passage.crossing.leads_before
    obtain ⟨found, known, _⟩ := leads.wellFormed.declared_of_live old
    apply notClosed scope closes
    exact (leads.wellFormed.listed scope place).mpr
      ⟨found, known, (leads.mem_placesOf_iff known).mp inScope⟩
  rw [stateOf, record_after_of_other tree other stays]
  cases taken : resolution.effect.takesFrom place with
  | true =>
      obtain ⟨use, takes, isPlace⟩ := (Option.any_eq_true _ _).mp taken
      cases beq_iff_eq.mp isPlace
      -- An operand that has escaped cannot be named, so this one has not.
      have inside : use.escaped = false := by
        cases escaped : use.escaped with
        | false => rfl
        | true =>
            have hidden := (passage.escaped_source (Effect.source?_of_takes? takes) escaped).2
            exact absurd old hidden
      rw [ScopeTree.stateByHistory_of_taken listed given taken, ← historic.copies _ old,
        ← historic.states _ old, takes, Option.elim_some, taken_of_inside tree inside,
        record_moveOut]
      by_cases copied : (ownership.record tree use.place).copy.isTrue = true ∧
          ownership.stateOf tree use.place = .owned
      · rw [if_pos copied, if_neg fun moved => moved.2 copied]
        exact copied.2
      · rw [if_neg copied, if_pos ⟨rfl, copied⟩]
  | false =>
      rw [ScopeTree.stateByHistory_of_other listed given taken, ← historic.states _ old]
      cases takes : resolution.effect.takes? with
      | none => rfl
      | some use =>
          have different : use.place ≠ place := by
            simpa [Effect.takesFrom, takes] using taken
          apply stateOf_taken_of_copied tree
          intro same
          exact absurd same different

theorem states_after (built : unit.scopeTree = .ok tree) (live : after.Live place) :
    (ownership.after tree resolution.effect).stateOf tree place =
      tree.stateByHistory (point + 1) place := by
  have listed := passage.crossing.listed
  cases given : resolution.effect.gives place with
  | true =>
      rw [ScopeTree.stateByHistory_of_given listed given]
      obtain ⟨target, targets, rfl, value⟩ := Effect.target?_of_gives given
      exact stateOf_after_given tree ownership targets value
  | false =>
      rcases passage.crossing.transition.live_before place live with
        ⟨old, notShadowed, notClosed⟩ | ⟨shadowed, rebinds, fresh⟩
      · exact state_of_kept passage historic old notShadowed notClosed given
      · have inside := Nat.le_of_lt (List.getElem?_eq_some_iff.mp passage.listed).1
        have undeclared := (passage.crossing.transition.fresh place shadowed rebinds fresh).1
        have declares := Effect.declare_of_not_gives given fresh rfl
        have ungiven := CodeUnit.lastBefore?_of_undeclared built
          (fun _ => Effect.mentions_of_gives) inside passage.reached undeclared
        have untaken := CodeUnit.lastBefore?_of_undeclared built
          (fun _ => Effect.mentions_of_takesFrom) inside passage.reached undeclared
        have takesNothing : resolution.effect.takesFrom place = false := by
          rw [declares]
          rfl
        rw [ScopeTree.stateByHistory_of_other listed given takesNothing,
          ScopeTree.stateByHistory, ungiven, untaken, declares, Ownership.after,
          stateOf_declareOver]
        exact if_pos rfl

theorem advance (built : unit.scopeTree = .ok tree) :
    (ownership.after tree resolution.effect).Historic tree (point + 1) after where
  states _ live := states_after passage historic built live
  copies _ live := copies_after passage historic built live

end Historic

end Ownership

/-- Before every statement, ownership is what the statements up to there say. -/
theorem CodeUnit.historic_builderAt {unit : CodeUnit} {tree : ScopeTree}
    (built : unit.scopeTree = .ok tree) (config : Config) {point : Point} {builder : Builder}
    (inside : point ≤ unit.statements.length) (reached : unit.builderAt point = .ok builder) :
    ((Context.ofTree config tree).stateBefore point).ownership.Historic tree point builder := by
  apply walk_induction built config
    (fun point builder state => state.ownership.Historic tree point builder) _ _ inside reached
  · have nothing : ∀ place, ¬Builder.Live {} place := by
      rintro place ⟨scope, isOpen, key, named⟩
      cases scope <;> simp [Builder.inScope?] at named
    exact ⟨fun place live => absurd live (nothing place),
      fun place live => absurd live (nothing place)⟩
  · intro point statement before resolution after rest state passage historic
    rw [Context.advance_ownership]
    exact historic.advance passage built

namespace OwnershipState

/-- What is reported of an operand in a state, if anything. -/
def fault? : OwnershipState → Option DiagnosticKind
  | .movedOut => some .useAfterMove
  | .uninitialized => some .useOfUninitialized
  | .owned => none
  | .dropped => none

theorem fault?_eq_useOfUninitialized_iff {state : OwnershipState} :
    state.fault? = some .useOfUninitialized ↔ state = .uninitialized := by
  cases state <;> decide

theorem fault?_eq_useAfterMove_iff {state : OwnershipState} :
    state.fault? = some .useAfterMove ↔ state = .movedOut := by
  cases state <;> decide

theorem fault?_eq_none_iff {state : OwnershipState} :
    state.fault? = none ↔ state ≠ .uninitialized ∧ state ≠ .movedOut := by
  cases state <;> decide

end OwnershipState

/-- Whether a diagnostic tells of a value that is not there. -/
def Diagnostic.isOfOwnership (diagnostic : Diagnostic) : Bool :=
  DiagnosticKind.ofOwnership.contains diagnostic.kind

/-- The kind and the place of what is reported of missing values at a point. -/
def Context.ownershipFaults (context : Context) (point : Point) : List (DiagnosticKind × Name) :=
  ((context.run.diagnostics.filter (Diagnostic.isAt point)).filter Diagnostic.isOfOwnership).map
    fun diagnostic => (diagnostic.kind, diagnostic.place)

theorem State.requireOwned_adds (context : Context) (state : State) (place : PlaceId)
    (point : Point) (action : String) (span : Span) :
    ∃ added, (state.requireOwned context place point action span).1.diagnostics =
        state.diagnostics ++ added ∧
      (added.filter Diagnostic.isOfOwnership).map
          (fun diagnostic => (diagnostic.kind, diagnostic.place)) =
        (state.ownership.stateOf context.tree place).fault?.toList.map
          fun kind => (kind, context.tree.name place) := by
  unfold requireOwned
  cases held : state.ownership.stateOf context.tree place with
  | movedOut => exact ⟨_, rfl, rfl⟩
  | uninitialized => exact ⟨_, rfl, rfl⟩
  | owned => exact ⟨[], (List.append_nil _).symm, rfl⟩
  | dropped => exact ⟨[], (List.append_nil _).symm, rfl⟩

/-- Of missing values, a statement reports just what the state of its operand calls for. -/
theorem Context.ownershipFaults_eq {context : Context}
    (leads : Builder.Leads context.tree 0 {} context.tree.resolved) {point : Point}
    {resolution : Resolution} (listed : context.tree.resolved[point]? = some resolution)
    {use : Use} (source : resolution.effect.source? = some use) (inside : use.escaped = false) :
    context.ownershipFaults point =
      ((context.stateBefore point).ownership.stateOf context.tree use.place).fault?.toList.map
        fun kind => (kind, context.tree.name use.place) := by
  obtain ⟨action, further, stepped, kinds⟩ :=
    State.step_reports_of_inside context (context.stateBefore point) source inside
  obtain ⟨first, required, told⟩ := State.requireOwned_adds context (context.stateBefore point)
    use.place resolution.point action resolution.loc
  have whole := filter_run_eq leads listed
  rw [stateBefore_succ listed, advance, State.retireDead_diagnostics, stepped, required,
    List.append_assoc, List.append_cancel_left_eq] at whole
  have others : further.filter Diagnostic.isOfOwnership = [] := by
    rw [List.filter_eq_nil_iff]
    intro diagnostic membership
    have kind := (kinds diagnostic membership).2.2
    unfold Diagnostic.isOfOwnership
    generalize diagnostic.kind = found at kind
    revert found
    decide
  rw [ownershipFaults, ← whole, List.filter_append, others, List.append_nil]
  exact told

/-- An operand that has not escaped is reported exactly when the statements before say so: as
uninitialized if none of them gave or took its value, as moved if the value was taken and not
given since, unless it may be copied. -/
theorem operand_faults_by_history {unit : CodeUnit} {tree : ScopeTree}
    (built : unit.scopeTree = .ok tree) (config : Config) {point : Point}
    {resolution : Resolution} (listed : tree.resolved[point]? = some resolution) {use : Use}
    (source : resolution.effect.source? = some use) (inside : use.escaped = false) :
    let given := tree.lastBefore? (Effect.gives use.place) point
    let taken := tree.lastBefore? (Effect.takesFrom use.place) point
    let faults := (Context.ofTree config tree).ownershipFaults point
    let unmet := given = none ∧ taken = none
    let moved := ∃ last, taken = some last ∧
      (given = none ∨ ∃ earlier, given = some earlier ∧ earlier < last ∧
        tree.copyInForce point use.place = false)
    (faults = [(.useOfUninitialized, tree.name use.place)] ↔ unmet) ∧
      (faults = [(.useAfterMove, tree.name use.place)] ↔ moved) ∧
      (faults = [] ↔ ¬unmet ∧ ¬moved) := by
  intro given taken faults unmet moved
  obtain ⟨statement, before, after, rest, passage⟩ := CodeUnit.passage_at built listed
  have bound := Nat.le_of_lt (List.getElem?_eq_some_iff.mp passage.listed).1
  have historic := CodeUnit.historic_builderAt built config bound passage.reached
  have live := passage.crossing.transition.source_live use source inside
  have told : faults = (tree.stateByHistory point use.place).fault?.toList.map
      fun kind => (kind, tree.name use.place) := by
    rw [← historic.states use.place live]
    have leads : Builder.Leads (Context.ofTree config tree).tree 0 {} tree.resolved :=
      (Builder.leads_of_scopeTree built).2
    exact Context.ownershipFaults_eq leads listed source inside
  have only : ∀ kind, faults = [(kind, tree.name use.place)] ↔
      (tree.stateByHistory point use.place).fault? = some kind := by
    intro kind
    rw [told]
    cases (tree.stateByHistory point use.place).fault? <;> simp
  have nothing : faults = [] ↔ (tree.stateByHistory point use.place).fault? = none := by
    rw [told]
    cases (tree.stateByHistory point use.place).fault? <;> simp
  have isUnmet : tree.stateByHistory point use.place = .uninitialized ↔ unmet :=
    OwnershipState.ofHistory_eq_uninitialized_iff
  have isMoved : tree.stateByHistory point use.place = .movedOut ↔ moved :=
    OwnershipState.ofHistory_eq_movedOut_iff
  refine ⟨?_, ?_, ?_⟩
  · rw [only, OwnershipState.fault?_eq_useOfUninitialized_iff, isUnmet]
  · rw [only, OwnershipState.fault?_eq_useAfterMove_iff, isMoved]
  · rw [nothing, OwnershipState.fault?_eq_none_iff, ne_eq, ne_eq, isUnmet, isMoved]

/-- A place that is never given a value, and one that may be copied until it is bound again. -/
def rebound : CodeUnit := .ofActions "rebound" [
  .declare (.str "a") (.bool false) (.bool false),
  .read (.str "a"),
  .consume (.str "a"),
  .read (.str "a"),
  .bind (.str "b") (.bool true) none (.bool false) (.bool true),
  .consume (.str "b"),
  .read (.str "b"),
  .bind (.str "b") (.bool true) none (.bool false) (.bool false),
  .consume (.str "b"),
  .read (.str "b")]

/-- The last read comes after a move: the flag of the second bind is in force. -/
theorem rebound_faults :
    ∃ tree, rebound.scopeTree = .ok tree ∧
      (Context.ofTree {} tree).ownershipFaults 9 = [(.useAfterMove, tree.name 1)] := by
  have known : (rebound.scopeTree.toOption.map fun tree =>
      ((tree.resolved[9]?).map fun resolution => resolution.effect.source?,
        tree.lastBefore? (Effect.gives 1) 9, tree.lastBefore? (Effect.takesFrom 1) 9,
        tree.copyInForce 9 1)) =
      some (some (some ⟨1, false⟩), some 7, some 8, false) := by
    decide
  obtain ⟨tree, found, facts⟩ := Option.map_eq_some_iff.mp known
  have built := toOption_eq_some_iff.mp found
  simp only [Prod.mk.injEq] at facts
  obtain ⟨listed, given, taken, copied⟩ := facts
  obtain ⟨resolution, listed, source⟩ := Option.map_eq_some_iff.mp listed
  refine ⟨tree, built, ?_⟩
  apply (operand_faults_by_history built {} listed source rfl).2.1.mpr
  exact ⟨8, taken, .inr ⟨7, given, by decide, copied⟩⟩

end LoanCheck
