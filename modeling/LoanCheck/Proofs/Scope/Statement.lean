import LoanCheck.Proofs.Scope.Path

/-!
# From statements to resolutions

The builder before each statement is what taking the statements before it leads to.  Taking
a statement looks its operand up in that builder, and changes names in one of four ways:
not at all, by one declaration, or by entering or leaving a scope.
-/

namespace LoanCheck

namespace Action

/-- Whether what a statement binds or declares may be copied; nothing else may. -/
def copyFlag : Action → Flag
  | .bind _ _ _ _ copy => copy
  | .declare _ _ copy => copy
  | _ => .bool false

/-- The name that a statement gives a value or declares. -/
def target? : Action → Option Name
  | .bind place _ _ _ _ => some place
  | .declare place _ _ => some place
  | .move dest _ => some dest
  | .borrow _ dest _ => some dest
  | _ => none

/-- The name that a move or a borrow gives a value. -/
def destination? : Action → Option Name
  | .move dest _ => some dest
  | .borrow _ dest _ => some dest
  | _ => none

/-- A statement, and an effect of the sort that it is resolved to. -/
inductive Performs : Action → Effect → Prop where
  | bind (place : Name) (mutable : Flag) (source : Option Name) (shadow copy : Flag)
      (target : Target) (use : Option Use) :
      Performs (.bind place mutable source shadow copy) (.bind target use mutable copy)
  | declare (place : Name) (mutable copy : Flag) (target : Target) :
      Performs (.declare place mutable copy) (.declare target)
  | move (dest src : Name) (target : Target) (use : Use) :
      Performs (.move dest src) (.move target use)
  | borrow (kind : BorrowKind) (dest referent : Name) (target : Target) (use : Use) :
      Performs (.borrow kind dest referent) (.borrow kind target use)
  | write (place : Name) (use : Use) : Performs (.write place) (.write use)
  | read (place : Name) (use : Use) : Performs (.read place) (.read use)
  | consume (place : Name) (use : Use) : Performs (.consume place) (.consume use)
  | enter : Performs .enter .enter
  | exit (closes : ScopeId) : Performs .exit (.exit closes)

end Action

namespace Builder

theorem run_append (builder : Builder) (point : Point) (first second : List Statement) :
    builder.run point (first ++ second) =
      builder.run point first >>= fun middle => middle.run (point + first.length) second := by
  induction first generalizing builder point with
  | nil => rfl
  | cons statement rest inductionHypothesis =>
      simp only [List.cons_append, run, List.length_cons]
      cases builder.step point statement with
      | error reason => rfl
      | ok next =>
          apply (inductionHypothesis next (point + 1)).trans
          rw [Nat.add_assoc, Nat.add_comm 1]
          rfl

/-- At most one place has been declared, in the current scope. -/
inductive Extends (before : Builder) (point : Point) (copy : Flag) (after : Builder) : Prop where
  | kept (alike : Alike before after)
  | declared (name : Name) (key : Key) (mutable : Flag) (deferred : Bool)
      (keyed : name.key = .ok key)
      (alike : Alike (before.declare point name key mutable copy deferred false).1 after)

/-- A target has been found or declared; nothing has been closed or resolved. -/
structure Targets (before : Builder) (point : Point) (copy : Flag) (after : Builder) : Prop where
  extended : Extends before point copy after
  closed : after.closed = before.closed
  resolved : after.resolved = before.resolved

/-- How a statement changes which places have which names. -/
inductive Names (before : Builder) (point : Point) (statement : Statement) : Builder → Prop where
  | inside {after : Builder} (extended : Extends before point statement.action.copyFlag after)
      (closed : after.closed = before.closed) : Names before point statement after
  | entered : Names before point statement (before.enter point statement.loc)
  | left {after : Builder} (exits : before.exit point statement.loc = .ok after) :
      Names before point statement after

theorem Alike.current {first second : Builder} (alike : Alike first second) :
    second.current = first.current :=
  (List.cons.inj alike.openScopes).1

theorem Alike.declare {first second : Builder} (alike : Alike first second) (point : Point)
    (name : Name) (key : Key) (mutable copy : Flag) (deferred rebinds : Bool) :
    Alike (first.declare point name key mutable copy deferred rebinds).1
      (second.declare point name key mutable copy deferred rebinds).1 := by
  refine ⟨alike.openScopes, ?_, ?_, ?_, ?_⟩
  · funext scope
    rw [outline?_declare, outline?_declare, alike.outlines, alike.current, alike.placeCount]
  · funext place
    rw [declared?_declare, declared?_declare, alike.declarations, alike.current, alike.placeCount]
  · rw [length_scopes_declare, length_scopes_declare, alike.scopeCount]
  · simp only [Builder.declare, List.length_append, List.length_singleton, alike.placeCount]

section Resolve

variable {before middle after : Builder} {point : Point} {loc : Span} {effect : Effect}
  {action : Action} {copy : Flag}

theorem Extends.then_alike (extended : Extends before point copy middle)
    (alike : Alike middle after) : Extends before point copy after := by
  cases extended with
  | kept same => exact .kept (same.trans alike)
  | declared name key mutable deferred keyed same =>
      exact .declared name key mutable deferred keyed (same.trans alike)

theorem Extends.after_alike (alike : Alike before middle)
    (extended : Extends middle point copy after) : Extends before point copy after := by
  cases extended with
  | kept same => exact .kept (alike.trans same)
  | declared name key mutable deferred keyed same =>
      apply Extends.declared name key mutable deferred keyed
      exact (alike.declare point name key mutable copy deferred false).trans same

theorem keyOf_eq_ok {name : Name} {key : Key} (found : keyOf name = .ok key) :
    name.key = .ok key := by
  unfold keyOf at found
  split at found
  · next same =>
      cases found
      exact same
  · cases found

theorem assign_targets {name : Name} {target : Target}
    (assigned : before.assign point name = .ok (after, target)) :
    Targets before point (.bool false) after := by
  simp only [assign, bind_eq_ok_iff] at assigned
  obtain ⟨key, keyed, chosen⟩ := assigned
  have named := keyOf_eq_ok keyed
  split at chosen
  · split at chosen
    · cases chosen
      exact ⟨.kept (.refl before), rfl, rfl⟩
    · cases chosen
      exact ⟨.declared name key _ _ named (.refl _), rfl, rfl⟩
  · cases chosen
    exact ⟨.declared name key _ _ named (.refl _), rfl, rfl⟩

theorem bindTarget_targets {name : Name} {mutable shadow : Flag} {holding : Option Holding}
    {target : Target}
    (bound : before.bindTarget point name mutable shadow copy holding = .ok (after, target)) :
    Targets before point copy after := by
  simp only [bindTarget, bind_eq_ok_iff] at bound
  obtain ⟨key, keyed, chosen⟩ := bound
  have named := keyOf_eq_ok keyed
  split at chosen
  · split at chosen
    · cases chosen
      exact ⟨.kept (.refl before), rfl, rfl⟩
    · cases chosen
      exact ⟨.declared name key _ _ named (.refl _), rfl, rfl⟩
  · cases chosen
    exact ⟨.declared name key _ _ named (.refl _), rfl, rfl⟩

theorem Targets.hold {place : PlaceId} {holding : Option Holding}
    (targets : Targets before point copy middle)
    (held : middle.hold point loc place holding = .ok after) :
    Targets before point copy after := by
  refine ⟨targets.extended.then_alike (alike_hold held), ?_, ?_⟩
  · rw [(hold_cases held).1]
    exact targets.closed
  · rw [(hold_cases held).1]
    exact targets.resolved

theorem mapM_use {name : Name} {use : Use} (used : before.use point loc name = .ok use) :
    (some name).mapM (before.use point loc) = .ok (some use) := by
  rw [Option.mapM_some, used]
  rfl

/-- Resolving a statement looks its operand up, then declares at most one place with the flags
of the statement. -/
theorem resolve_targets (resolved : before.resolve point loc action = .ok (after, effect)) :
    Targets before point action.copyFlag after ∧
      action.operand?.mapM (before.use point loc) = .ok effect.source? ∧
      ∀ target source mutable copy, effect = .bind target source mutable copy →
        copy = action.copyFlag := by
  cases action with
  | bind name mutable source shadow copy =>
      simp only [resolve, bind_eq_ok_iff] at resolved
      obtain ⟨use, used, ⟨middle, target⟩, chosen, next, held, same⟩ := resolved
      cases same
      refine ⟨(bindTarget_targets chosen).hold held, used, ?_⟩
      rintro _ _ _ _ ⟨⟩
      rfl
  | declare name mutable copy =>
      simp only [resolve, bind_eq_ok_iff] at resolved
      obtain ⟨key, keyed, same⟩ := resolved
      cases same
      exact ⟨⟨.declared name key mutable true (keyOf_eq_ok keyed) (.refl _), rfl, rfl⟩,
        rfl, by rintro _ _ _ _ ⟨⟩⟩
  | move dest src =>
      simp only [resolve, bind_eq_ok_iff] at resolved
      obtain ⟨use, used, ⟨middle, target⟩, chosen, next, held, same⟩ := resolved
      cases same
      exact ⟨(assign_targets chosen).hold held, mapM_use used, by rintro _ _ _ _ ⟨⟩⟩
  | borrow kind dest referent =>
      simp only [resolve, bind_eq_ok_iff] at resolved
      obtain ⟨use, used, ⟨middle, target⟩, chosen, next, held, same⟩ := resolved
      cases same
      exact ⟨(assign_targets chosen).hold held, mapM_use used, by rintro _ _ _ _ ⟨⟩⟩
  | write place =>
      simp only [resolve, bind_eq_ok_iff] at resolved
      obtain ⟨use, used, same⟩ := resolved
      cases same
      exact ⟨⟨.kept (.refl before), rfl, rfl⟩, mapM_use used, by rintro _ _ _ _ ⟨⟩⟩
  | read place =>
      simp only [resolve, bind_eq_ok_iff] at resolved
      obtain ⟨use, used, same⟩ := resolved
      cases same
      exact ⟨⟨.kept (.refl before), rfl, rfl⟩, mapM_use used, by rintro _ _ _ _ ⟨⟩⟩
  | consume place =>
      simp only [resolve, bind_eq_ok_iff] at resolved
      obtain ⟨use, used, same⟩ := resolved
      cases same
      exact ⟨⟨.kept (.refl before), rfl, rfl⟩, mapM_use used, by rintro _ _ _ _ ⟨⟩⟩
  | enter =>
      cases resolved
      exact ⟨⟨.kept (.refl before), rfl, rfl⟩, rfl, by rintro _ _ _ _ ⟨⟩⟩
  | exit =>
      cases resolved
      exact ⟨⟨.kept (.refl before), rfl, rfl⟩, rfl, by rintro _ _ _ _ ⟨⟩⟩

theorem use_addItem (before : Builder) (item : ScopeItem) :
    (before.addItem item).use = before.use := by
  have names := (alike_addItem before item).names
  funext point loc name
  simp only [use, visible?, names]
  rfl

/-- What a statement is resolved to: its operand is looked up in the builder before it. -/
structure Resolves (before : Builder) (point : Point) (statement : Statement)
    (resolution : Resolution) : Prop where
  at_point : resolution.point = point
  loc : resolution.loc = statement.loc
  operand : statement.action.operand?.mapM (before.use point statement.loc) =
    .ok resolution.effect.source?
  copies : ∀ target source mutable copy, resolution.effect = .bind target source mutable copy →
    copy = statement.action.copyFlag

theorem step_resolves {statement : Statement} (stepped : before.step point statement = .ok after) :
    Names before point statement after ∧
      ∃ resolution, after.resolved = before.resolved ++ [resolution] ∧
        Resolves before point statement resolution := by
  obtain ⟨action, loc⟩ := statement
  simp only [step] at stepped
  split at stepped
  · cases stepped
    exact ⟨.entered, _, rfl, rfl, rfl, rfl, by rintro _ _ _ _ ⟨⟩⟩
  · exact ⟨.left stepped, _, (exit_cases stepped).2.2.2.2, rfl, rfl, rfl, by rintro _ _ _ _ ⟨⟩⟩
  · rw [bind_eq_ok_iff] at stepped
    obtain ⟨⟨middle, effect⟩, resolved, same⟩ := stepped
    cases same
    have items := alike_addItem before (.point point)
    obtain ⟨targets, operand, copies⟩ := resolve_targets resolved
    rw [use_addItem] at operand
    have recorded := alike_record middle point middle.current loc effect
    have extended := (targets.extended.after_alike items).then_alike recorded
    exact ⟨.inside extended targets.closed, _, congrArg (· ++ _) targets.resolved, rfl, rfl,
      operand, copies⟩

theorem resolve_performs {action : Action} {effect : Effect}
    (resolved : before.resolve point loc action = .ok (after, effect)) :
    action.Performs effect := by
  cases action with
  | bind name mutable source shadow copy =>
      simp only [resolve, bind_eq_ok_iff] at resolved
      obtain ⟨use, _, ⟨middle, target⟩, _, next, _, same⟩ := resolved
      cases same
      exact .bind ..
  | declare name mutable copy =>
      simp only [resolve, bind_eq_ok_iff] at resolved
      obtain ⟨key, _, same⟩ := resolved
      cases same
      exact .declare ..
  | move dest src =>
      simp only [resolve, bind_eq_ok_iff] at resolved
      obtain ⟨use, _, ⟨middle, target⟩, _, next, _, same⟩ := resolved
      cases same
      exact .move ..
  | borrow kind dest referent =>
      simp only [resolve, bind_eq_ok_iff] at resolved
      obtain ⟨use, _, ⟨middle, target⟩, _, next, _, same⟩ := resolved
      cases same
      exact .borrow ..
  | write place =>
      simp only [resolve, bind_eq_ok_iff] at resolved
      obtain ⟨use, _, same⟩ := resolved
      cases same
      exact .write ..
  | read place =>
      simp only [resolve, bind_eq_ok_iff] at resolved
      obtain ⟨use, _, same⟩ := resolved
      cases same
      exact .read ..
  | consume place =>
      simp only [resolve, bind_eq_ok_iff] at resolved
      obtain ⟨use, _, same⟩ := resolved
      cases same
      exact .consume ..
  | enter =>
      cases resolved
      exact .enter
  | exit =>
      cases resolved
      exact .exit _

theorem step_performs {statement : Statement} (stepped : before.step point statement = .ok after) :
    ∃ resolution, after.resolved = before.resolved ++ [resolution] ∧
      statement.action.Performs resolution.effect := by
  obtain ⟨_, recorded, appended, _⟩ := step_resolves stepped
  refine ⟨recorded, appended, ?_⟩
  obtain ⟨action, loc⟩ := statement
  simp only [step] at stepped
  split at stepped
  · cases stepped
    cases List.append_cancel_left appended
    exact .enter
  · rw [(exit_cases stepped).2.2.2.2] at appended
    cases List.append_cancel_left appended
    exact .exit _
  · rw [bind_eq_ok_iff] at stepped
    obtain ⟨⟨middle, effect⟩, resolved, same⟩ := stepped
    cases same
    have performs := resolve_performs resolved
    rw [record, (resolve_targets resolved).1.resolved] at appended
    cases List.append_cancel_left appended
    exact performs

end Resolve

end Builder

namespace CodeUnit

/-- The builder before the statement at a point, if the builder gets there. -/
def builderAt (unit : CodeUnit) (point : Point) : Except ResolveError Builder :=
  Builder.run {} 0 (unit.statements.take point)

variable {unit : CodeUnit} {tree : ScopeTree} {point : Point}

theorem builderAt_succ {statement : Statement} (listed : unit.statements[point]? = some statement) :
    unit.builderAt (point + 1) =
      unit.builderAt point >>= fun before => before.step point statement := by
  have inside := (List.getElem?_eq_some_iff.mp listed).1
  rw [builderAt, List.take_add_one, listed, Builder.run_append, List.length_take,
    Nat.min_eq_left (Nat.le_of_lt inside), Nat.zero_add, builderAt]
  congr 1
  funext before
  exact bind_pure _

theorem scopeTree_eq_error {reason : ResolveError} (failed : unit.builderAt point = .error reason) :
    unit.scopeTree = .error reason := by
  have split := Builder.run_append {} 0 (unit.statements.take point) (unit.statements.drop point)
  rw [List.take_append_drop] at split
  rw [scopeTree, split, ← builderAt, failed]
  rfl

/-- What holds at the start and is kept by every statement holds before each statement that the
builder gets to. -/
theorem builderAt_induction (motive : Point → Builder → Prop) (start : motive 0 {})
    (keeps : ∀ {point statement before after}, unit.statements[point]? = some statement →
      unit.builderAt point = .ok before → before.step point statement = .ok after →
        motive point before → motive (point + 1) after)
    {builder : Builder} (inside : point ≤ unit.statements.length)
    (reached : unit.builderAt point = .ok builder) : motive point builder := by
  induction point generalizing builder with
  | zero =>
      cases reached
      exact start
  | succ point inductionHypothesis =>
      have listed := List.getElem?_eq_getElem (Nat.lt_of_succ_le inside)
      have stepped := reached
      rw [builderAt_succ listed, bind_eq_ok_iff] at stepped
      obtain ⟨before, earlier, stepped⟩ := stepped
      exact keeps listed earlier stepped
        (inductionHypothesis (Nat.le_of_succ_le inside) earlier)

theorem wellFormed_builderAt {builder : Builder} (inside : point ≤ unit.statements.length)
    (reached : unit.builderAt point = .ok builder) : builder.WellFormed point := by
  apply builderAt_induction (fun point builder => builder.WellFormed point)
    Builder.wellFormed_empty _ inside reached
  intro point statement before after _ _ stepped wellFormed
  obtain ⟨_, _, _, _, _, later⟩ := Builder.step_cases wellFormed stepped
  exact later

theorem length_resolved {builder : Builder} (inside : point ≤ unit.statements.length)
    (reached : unit.builderAt point = .ok builder) : builder.resolved.length = point := by
  apply builderAt_induction (fun point builder => builder.resolved.length = point) rfl _ inside
    reached
  intro point statement before after _ _ stepped length
  obtain ⟨_, resolution, recorded, _⟩ := Builder.step_resolves stepped
  rw [recorded, List.length_append, length, List.length_singleton]

/-- The builder of a unit with a scope tree gets to every statement. -/
theorem leads_builderAt (built : unit.scopeTree = .ok tree)
    (inside : point ≤ unit.statements.length) :
    ∃ builder resolved, unit.builderAt point = .ok builder ∧
      tree.resolved = builder.resolved ++ resolved ∧
      Builder.Leads tree point builder resolved := by
  have split := Builder.run_append {} 0 (unit.statements.take point) (unit.statements.drop point)
  rw [List.take_append_drop, List.length_take, Nat.min_eq_left inside, Nat.zero_add] at split
  rw [scopeTree, split, bind_eq_ok_iff] at built
  obtain ⟨last, taken, finished⟩ := built
  obtain ⟨builder, reached, remaining⟩ := bind_eq_ok_iff.mp taken
  have counted : point + (unit.statements.drop point).length = unit.endPoint := by
    rw [List.length_drop]
    exact Nat.add_sub_cancel' inside
  obtain ⟨resolved, listed, leads⟩ :=
    Builder.leads_of_run (wellFormed_builderAt inside reached) counted remaining finished
  exact ⟨builder, resolved, reached, listed, leads⟩

theorem length_of_scopeTree (built : unit.scopeTree = .ok tree) :
    tree.resolved.length = unit.statements.length := by
  obtain ⟨same, leads⟩ := Builder.leads_of_scopeTree built
  have ends := leads.end_eq
  rw [Nat.zero_add, same] at ends
  exact ends

/-- A scope tree is finished where the builder has taken all statements. -/
theorem finish_of_scopeTree (built : unit.scopeTree = .ok tree) :
    tree.unit = unit ∧ ∃ last, unit.builderAt unit.statements.length = .ok last ∧
      last.WellFormed unit.endPoint ∧ last.finish unit = .ok tree := by
  rw [scopeTree, bind_eq_ok_iff] at built
  obtain ⟨last, taken, finished⟩ := built
  have reached : unit.builderAt unit.statements.length = .ok last := by
    rw [builderAt, List.take_length]
    exact taken
  exact ⟨(Builder.finish_cases finished).2.1, last, reached,
    wellFormed_builderAt (Nat.le_refl _) reached, finished⟩

/-- A statement of a unit that has a scope tree, between the builders before and after it. -/
structure Passage (unit : CodeUnit) (tree : ScopeTree) (point : Point) (statement : Statement)
    (before : Builder) (resolution : Resolution) (after : Builder) (rest : List Resolution) :
    Prop where
  listed : unit.statements[point]? = some statement
  reached : unit.builderAt point = .ok before
  reached_next : unit.builderAt (point + 1) = .ok after
  names : Builder.Names before point statement after
  resolves : Builder.Resolves before point statement resolution
  crossing : Builder.Crossing tree point before resolution after rest

/-- What a statement was resolved to is what the builder recorded when it took the statement. -/
theorem resolved_of_step (built : unit.scopeTree = .ok tree) {statement : Statement}
    {before after : Builder} {taken : Resolution}
    (listed : unit.statements[point]? = some statement)
    (reached : unit.builderAt point = .ok before)
    (stepped : before.step point statement = .ok after)
    (recorded : after.resolved = before.resolved ++ [taken]) :
    tree.resolved[point]? = some taken := by
  have inside := (List.getElem?_eq_some_iff.mp listed).1
  obtain ⟨next, rest, reachedNext, remaining, _⟩ := leads_builderAt built inside
  rw [builderAt_succ listed, reached] at reachedNext
  cases stepped.symm.trans reachedNext
  rw [remaining, recorded, List.append_assoc, List.singleton_append,
    ← length_resolved (Nat.le_of_lt inside) reached]
  simp

theorem passage_at (built : unit.scopeTree = .ok tree) {resolution : Resolution}
    (found : tree.resolved[point]? = some resolution) :
    ∃ statement before after rest,
      Passage unit tree point statement before resolution after rest := by
  have inside := (List.getElem?_eq_some_iff.mp found).1
  rw [length_of_scopeTree built] at inside
  have listed := List.getElem?_eq_getElem inside
  obtain ⟨after, rest, reachedNext, _, leads⟩ := leads_builderAt built inside
  have stepped := reachedNext
  rw [builderAt_succ listed, bind_eq_ok_iff] at stepped
  obtain ⟨before, reached, stepped⟩ := stepped
  have wellFormed := wellFormed_builderAt (Nat.le_of_lt inside) reached
  obtain ⟨names, taken, recorded, resolves⟩ := Builder.step_resolves stepped
  obtain ⟨same, alsoRecorded, at_point, _, transition, _⟩ := Builder.step_cases wellFormed stepped
  rw [recorded, List.append_cancel_left_eq, List.singleton_inj] at alsoRecorded
  subst alsoRecorded
  have isTaken := resolved_of_step built listed reached stepped recorded
  rw [found, Option.some.injEq] at isTaken
  subst isTaken
  exact ⟨_, before, after, rest, listed, reached, reachedNext, names, resolves,
    .step wellFormed at_point transition leads, leads, at_point, found, transition⟩

theorem performs_at (built : unit.scopeTree = .ok tree) {statement : Statement}
    (stated : unit.statements[point]? = some statement) :
    ∃ resolution, tree.resolved[point]? = some resolution ∧
      statement.action.Performs resolution.effect := by
  have inside := (List.getElem?_eq_some_iff.mp stated).1
  obtain ⟨after, _, reachedNext, _⟩ := leads_builderAt built inside
  rw [builderAt_succ stated, bind_eq_ok_iff] at reachedNext
  obtain ⟨before, reached, stepped⟩ := reachedNext
  obtain ⟨taken, recorded, performs⟩ := Builder.step_performs stepped
  exact ⟨taken, resolved_of_step built stated reached stepped recorded, performs⟩

end CodeUnit

end LoanCheck
