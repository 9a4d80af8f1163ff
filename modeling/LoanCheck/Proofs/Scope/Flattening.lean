import LoanCheck.Proofs.Scope.Prefix

/-!
# Scopes laid out flat

The items of a scope are statements and inner scopes.  Laid out flat, an inner scope stands
for the point at which it is entered, its own items laid out flat, and the point at which it
ends.  The builder keeps the statements it has taken in this order along its open scopes, so
the outermost scope of a finished tree, laid out flat, is the unit again.
-/

namespace LoanCheck

/-- What a list of items is when it is laid out flat.  Only scopes that have ended can be. -/
inductive Flattens (scope? : ScopeId → Option Scope) : List ScopeItem → List Point → Prop where
  | nil : Flattens scope? [] []
  | point (point : Point) {rest : List ScopeItem} {points : List Point}
      (flat : Flattens scope? rest points) :
      Flattens scope? (.point point :: rest) (point :: points)
  | scope {id : ScopeId} {scope : Scope} {stop : Point} {rest : List ScopeItem}
      {inside points : List Point} (known : scope? id = some scope)
      (ended : scope.exit = some stop) (within : Flattens scope? scope.items inside)
      (flat : Flattens scope? rest points) :
      Flattens scope? (.scope id :: rest) (scope.enter :: (inside ++ stop :: points))

namespace Flattens

variable {scope? other? : ScopeId → Option Scope} {items more : List ScopeItem}
  {points added : List Point}

/-- There is one way to lay items out. -/
theorem unique (flat : Flattens scope? items points) (again : Flattens scope? items added) :
    points = added := by
  induction flat generalizing added with
  | nil =>
      cases again
      rfl
  | point point flat inductionHypothesis =>
      cases again with
      | point _ other => rw [inductionHypothesis other]
  | scope known ended within flat withinHypothesis restHypothesis =>
      cases again with
      | scope alsoKnown alsoEnded alsoWithin other =>
          cases known.symm.trans alsoKnown
          cases ended.symm.trans alsoEnded
          rw [withinHypothesis alsoWithin, restHypothesis other]

theorem append (flat : Flattens scope? items points) (other : Flattens scope? more added) :
    Flattens scope? (items ++ more) (points ++ added) := by
  induction flat with
  | nil => exact other
  | point point flat inductionHypothesis => exact .point point inductionHypothesis
  | scope known ended within flat _ restHypothesis =>
      rw [List.cons_append, List.cons_append, List.append_assoc]
      exact .scope known ended within restHypothesis

/-- Only the scopes that have ended matter. -/
theorem mono (flat : Flattens scope? items points)
    (kept : ∀ id scope stop, scope? id = some scope → scope.exit = some stop →
      ∃ other, other? id = some other ∧ other.enter = scope.enter ∧ other.exit = some stop ∧
        other.items = scope.items) : Flattens other? items points := by
  induction flat with
  | nil => exact .nil
  | point point flat inductionHypothesis => exact .point point inductionHypothesis
  | scope known ended within flat withinHypothesis restHypothesis =>
      obtain ⟨other, found, enter, exit, items⟩ := kept _ _ _ known ended
      rw [← enter]
      exact .scope found exit (items ▸ withinHypothesis) restHypothesis

/-- A scope that has not ended may be changed. -/
theorem mono_of_unended {changed : ScopeId} (flat : Flattens scope? items points)
    (kept : ∀ id scope, id ≠ changed → scope? id = some scope → other? id = some scope)
    (unended : ∀ scope, scope? changed = some scope → scope.exit = none) :
    Flattens other? items points := by
  refine flat.mono ?_
  intro id scope stop known ended
  have notChanged : id ≠ changed := by
    rintro rfl
    rw [unended scope known] at ended
    cases ended
  exact ⟨scope, kept id scope notChanged known, rfl, ended, rfl⟩

end Flattens

/-- The points from the start of the unit up to the end of the given items, which are the first
ones of the innermost of some open scopes.  Every other open scope goes on with the scope
inside it. -/
inductive Unrolls (scope? : ScopeId → Option Scope) :
    List ScopeId → List ScopeItem → List Point → Prop where
  | root {items : List ScopeItem} {points : List Point} (flat : Flattens scope? items points) :
      Unrolls scope? [ScopeTree.rootId] items points
  | inner {id parent : ScopeId} {outer : List ScopeId} {before items : List ScopeItem}
      {points inside : List Point} {around scope : Scope}
      (unrolls : Unrolls scope? (parent :: outer) before points)
      (known : scope? parent = some around) (listed : around.items = before ++ [.scope id])
      (found : scope? id = some scope) (flat : Flattens scope? items inside) :
      Unrolls scope? (id :: parent :: outer) items (points ++ scope.enter :: inside)

namespace Unrolls

variable {scope? other? : ScopeId → Option Scope} {scopes : List ScopeId}
  {items more : List ScopeItem} {points added : List Point}

theorem flattens {id : ScopeId} (unrolls : Unrolls scope? [id] items points) :
    Flattens scope? items points := by
  cases unrolls with
  | root flat => exact flat

/-- An inner scope comes last in the scope around it. -/
theorem outside {id parent : ScopeId} {outer : List ScopeId}
    (unrolls : Unrolls scope? (id :: parent :: outer) items points) :
    ∃ before earlier inside around scope, Unrolls scope? (parent :: outer) before earlier ∧
      scope? parent = some around ∧ around.items = before ++ [.scope id] ∧
      scope? id = some scope ∧ Flattens scope? items inside ∧
      points = earlier ++ scope.enter :: inside := by
  cases unrolls with
  | inner unrolls known listed found flat =>
      exact ⟨_, _, _, _, _, unrolls, known, listed, found, flat, rfl⟩

theorem append (unrolls : Unrolls scope? scopes items points)
    (flat : Flattens scope? more added) :
    Unrolls scope? scopes (items ++ more) (points ++ added) := by
  cases unrolls with
  | root first => exact .root (first.append flat)
  | inner unrolls known listed found first =>
      rw [List.append_assoc, List.cons_append]
      exact .inner unrolls known listed found (first.append flat)

/-- One scope that has not ended may be changed, if only in what comes after the given items. -/
theorem mono {changed : ScopeId} (unrolls : Unrolls scope? scopes items points)
    (innermost : changed ∉ scopes.tail)
    (kept : ∀ id scope, id ≠ changed → scope? id = some scope → other? id = some scope)
    (unended : ∀ scope, scope? changed = some scope → scope.exit = none ∧
      ∃ other, other? changed = some other ∧ other.enter = scope.enter) :
    Unrolls other? scopes items points := by
  have flattens : ∀ {items points}, Flattens scope? items points →
      Flattens other? items points := fun flat =>
    flat.mono_of_unended kept fun scope known => (unended scope known).1
  induction unrolls with
  | root flat => exact .root (flattens flat)
  | @inner id parent outer _ _ _ _ around scope unrolls known listed found flat
      inductionHypothesis =>
      rw [List.tail_cons, List.mem_cons, not_or] at innermost
      have outside := inductionHypothesis innermost.2
      have knownStill := kept parent around (Ne.symm innermost.1) known
      by_cases same : id = changed
      · subst same
        obtain ⟨_, other, foundNow, enter⟩ := unended scope found
        rw [← enter]
        exact .inner outside knownStill listed foundNow (flattens flat)
      · exact .inner outside knownStill listed (kept id scope same found) (flattens flat)

end Unrolls

/-- A scope without what is declared in it. -/
def Scope.frame (scope : Scope) : Scope := { scope with children := [], places := [], names := [] }

namespace Builder

def frame? (builder : Builder) (scope : ScopeId) : Option Scope :=
  (builder.scopes[scope]?).map Scope.frame

section Frames

variable {before after : Builder} {point : Point} {loc : Span}

theorem frame?_addItem (builder : Builder) (item : ScopeItem) (scope : ScopeId) :
    (builder.addItem item).frame? scope =
      (builder.frame? scope).map fun found =>
        if scope = builder.current then { found with items := found.items ++ [item] }
        else found := by
  simp only [frame?, addItem, List.getElem?_modify]
  cases builder.scopes[scope]? with
  | none => rfl
  | some found =>
      by_cases current : scope = builder.current
      · simp [current, Scope.frame]
      · simp [current, Ne.symm current]

theorem frame?_declare (builder : Builder) (point : Point) (name : Name) (key : Key)
    (mutable copy : Flag) (deferred rebinds : Bool) :
    (builder.declare point name key mutable copy deferred rebinds).1.frame? = builder.frame? := by
  funext scope
  simp only [frame?, declare, List.getElem?_modify]
  cases builder.scopes[scope]? with
  | none => rfl
  | some found => by_cases current : builder.current = scope <;> simp [current, Scope.frame]

theorem frame?_hold {place : PlaceId} {holding : Option Holding}
    (held : before.hold point loc place holding = .ok after) : after.frame? = before.frame? := by
  rw [(hold_cases held).1]
  rfl

theorem frame?_assign {name : Name} {target : Target}
    (assigned : before.assign point name = .ok (after, target)) :
    after.frame? = before.frame? := by
  simp only [assign, bind_eq_ok_iff] at assigned
  obtain ⟨key, _, chosen⟩ := assigned
  split at chosen
  · split at chosen
    · cases chosen
      rfl
    · cases chosen
      exact frame?_declare before point name key _ _ _ false
  · cases chosen
    exact frame?_declare before point name key _ _ _ false

theorem frame?_bindTarget {name : Name} {mutable shadow copy : Flag} {holding : Option Holding}
    {target : Target}
    (bound : before.bindTarget point name mutable shadow copy holding = .ok (after, target)) :
    after.frame? = before.frame? := by
  simp only [bindTarget, bind_eq_ok_iff] at bound
  obtain ⟨key, _, chosen⟩ := bound
  split at chosen
  · split at chosen
    · cases chosen
      rfl
    · cases chosen
      exact frame?_declare before point name key _ _ _ false
  · cases chosen
    exact frame?_declare before point name key _ _ _ false

/-- Resolving a statement leaves the frames of all scopes alone. -/
theorem frame?_resolve {action : Action} {effect : Effect}
    (resolved : before.resolve point loc action = .ok (after, effect)) :
    after.frame? = before.frame? := by
  cases action with
  | bind name mutable source shadow copy =>
      simp only [resolve, bind_eq_ok_iff] at resolved
      obtain ⟨_, _, ⟨middle, target⟩, chosen, next, held, same⟩ := resolved
      cases same
      exact (frame?_hold held).trans (frame?_bindTarget chosen)
  | declare name mutable copy =>
      simp only [resolve, bind_eq_ok_iff] at resolved
      obtain ⟨key, _, same⟩ := resolved
      cases same
      exact frame?_declare before point name key mutable copy true false
  | move dest src | borrow kind dest referent =>
      simp only [resolve, bind_eq_ok_iff] at resolved
      obtain ⟨_, _, ⟨middle, target⟩, chosen, next, held, same⟩ := resolved
      cases same
      exact (frame?_hold held).trans (frame?_assign chosen)
  | write place | read place | consume place =>
      simp only [resolve, bind_eq_ok_iff] at resolved
      obtain ⟨_, _, same⟩ := resolved
      cases same
      rfl
  | enter | exit =>
      cases resolved
      rfl

theorem frame?_enter (builder : Builder) (point : Point) (loc : Span) (scope : ScopeId) :
    (builder.enter point loc).frame? scope =
      if scope = builder.scopes.length then
        some { id := scope
               parent := some builder.current
               depth := ((builder.scopes[builder.current]?).elim 0 Scope.depth) + 1
               enter := point }
      else (builder.addItem (.scope builder.scopes.length)).frame? scope := by
  simp only [frame?, enter, addItem, record]
  rcases Nat.lt_trichotomy scope builder.scopes.length with inside | last | beyond
  · rw [List.getElem?_append_left (by simpa using inside), if_neg (Nat.ne_of_lt inside)]
    simp only [List.getElem?_modify]
    cases builder.scopes[scope]? with
    | none => rfl
    | some found => by_cases current : builder.current = scope <;> simp [current, Scope.frame]
  · subst last
    rw [List.getElem?_append_right (by simp)]
    simp [Scope.frame]
  · rw [List.getElem?_eq_none (by simpa using Nat.succ_le_of_lt beyond),
      if_neg (Nat.ne_of_gt beyond), List.getElem?_eq_none (by simpa using Nat.le_of_lt beyond)]

theorem frame?_exit (left : before.exit point loc = .ok after) (scope : ScopeId) :
    after.frame? scope = (before.frame? scope).map fun found =>
      if scope = before.current then { found with exit := some point } else found := by
  cases around : before.outer with
  | nil => simp [exit, around] at left
  | cons parent outer =>
      simp only [exit, around, Except.ok.injEq] at left
      subst left
      simp only [frame?, record, List.getElem?_modify]
      cases before.scopes[scope]? with
      | none => rfl
      | some found =>
          by_cases current : scope = before.current
          · simp [current, Scope.frame]
          · simp [current, Ne.symm current]

theorem frame?_length (builder : Builder) : builder.frame? builder.scopes.length = none := by
  simp [frame?]

/-- An open scope has not ended. -/
theorem WellFormed.exit_eq_none (wellFormed : before.WellFormed point) {scope : ScopeId}
    (isOpen : scope ∈ before.openScopes) {found : Scope}
    (known : before.frame? scope = some found) : found.exit = none := by
  obtain ⟨entry, listed, rfl⟩ := Option.map_eq_some_iff.mp known
  have unended := wellFormed.unended scope isOpen
  simp only [endOf?, outline?, listed] at unended
  exact unended

end Frames

/-- The statements taken so far, in the order of their points along the open scopes. -/
def Unrolled (builder : Builder) (point : Point) : Prop :=
  ∃ found, builder.frame? builder.current = some found ∧
    Unrolls builder.frame? builder.openScopes found.items (List.range point)

theorem unrolled_empty : Unrolled {} 0 := ⟨_, rfl, .root .nil⟩

namespace Unrolled

variable {before after : Builder} {point : Point} (wellFormed : before.WellFormed point)
  (unrolled : before.Unrolled point)

include wellFormed unrolled

/-- An item that is added to the current scope comes after all statements. -/
theorem unrolls_addItem (item : ScopeItem) :
    ∃ found, before.frame? before.current = some found ∧
      (before.addItem item).frame? before.current =
        some { found with items := found.items ++ [item] } ∧
      Unrolls (before.addItem item).frame? before.openScopes found.items (List.range point) := by
  obtain ⟨found, known, unrolls⟩ := unrolled
  have changed : (before.addItem item).frame? before.current =
      some { found with items := found.items ++ [item] } := by
    rw [frame?_addItem, known, Option.map_some, if_pos rfl]
  have distinct : before.current ∉ before.openScopes.tail :=
    (List.nodup_cons.mp wellFormed.nodup).1
  refine ⟨found, known, changed, unrolls.mono distinct ?_ ?_⟩
  · intro scope kept other listed
    rw [frame?_addItem, listed, Option.map_some, if_neg other]
  · intro scope listed
    cases known.symm.trans listed
    exact ⟨wellFormed.exit_eq_none List.mem_cons_self known, _, changed, rfl⟩

theorem addPoint (same : after.frame? = (before.addItem (.point point)).frame?)
    (scopes : after.openScopes = before.openScopes) : after.Unrolled (point + 1) := by
  obtain ⟨found, _, changed, unrolls⟩ := unrolled.unrolls_addItem wellFormed (.point point)
  have current : after.current = before.current := (List.cons.inj scopes).1
  refine ⟨_, by rw [same, current]; exact changed, ?_⟩
  rw [same, scopes, List.range_succ]
  exact unrolls.append (.point point .nil)

theorem enter (loc : Span) : (before.enter point loc).Unrolled (point + 1) := by
  obtain ⟨found, known, changed, unrolls⟩ :=
    unrolled.unrolls_addItem wellFormed (.scope before.scopes.length)
  have added := frame?_enter before point loc
  have old : ∀ scope found, (before.addItem (.scope before.scopes.length)).frame? scope =
      some found → (before.enter point loc).frame? scope = some found := by
    intro scope entry listed
    rw [added, if_neg, listed]
    rintro rfl
    rw [frame?_addItem, frame?_length] at listed
    cases listed
  have new := (added before.scopes.length).trans (if_pos rfl)
  refine ⟨_, new, ?_⟩
  rw [openScopes_enter, List.range_succ]
  have unlisted : before.scopes.length ∉ before.openScopes.tail := by
    intro isOuter
    exact Nat.lt_irrefl _ (wellFormed.bounded _ (List.mem_of_mem_tail isOuter))
  refine .inner (unrolls.mono unlisted ?_ ?_) (old _ _ changed) rfl new .nil
  · exact fun scope entry _ listed => old scope entry listed
  · intro scope listed
    rw [frame?_addItem, frame?_length] at listed
    cases listed

theorem exit {loc : Span} (left : before.exit point loc = .ok after) :
    after.Unrolled (point + 1) := by
  obtain ⟨found, known, unrolls⟩ := unrolled
  obtain ⟨scopes, _⟩ := exit_cases left
  have distinct := wellFormed.nodup
  have ends := frame?_exit left
  have unended := wellFormed.exit_eq_none List.mem_cons_self known
  have closed := (ends before.current).trans (congrArg _ known)
  rw [Option.map_some, if_pos rfl] at closed
  have kept : ∀ scope entry, scope ≠ before.current → before.frame? scope = some entry →
      after.frame? scope = some entry := by
    intro scope entry other listed
    rw [ends, listed, Option.map_some, if_neg other]
  rw [scopes] at unrolls distinct
  -- The scope that is left is the last item of the one around it, and can be laid out now.
  change Unrolls before.frame? (before.current :: after.current :: after.outer) _ _ at unrolls
  obtain ⟨items, earlier, inside, around, scope, unrolls, above, listed, alsoKnown, flat, points⟩ :=
    unrolls.outside
  cases known.symm.trans alsoKnown
  have unlisted := (List.nodup_cons.mp distinct).1
  have notCurrent : after.current ≠ before.current := fun same =>
    unlisted (List.mem_cons.mpr (.inl same.symm))
  have laidOut : Flattens after.frame? found.items inside :=
    flat.mono_of_unended kept fun _ => wellFormed.exit_eq_none List.mem_cons_self
  have still : Unrolls after.frame? after.openScopes items earlier := by
    refine unrolls.mono (fun isOuter => unlisted (List.mem_of_mem_tail isOuter)) kept ?_
    intro entry foundAt
    cases known.symm.trans foundAt
    exact ⟨unended, _, closed, rfl⟩
  refine ⟨around, kept _ around notCurrent above, ?_⟩
  rw [listed, List.range_succ, points, List.append_assoc]
  have whole := still.append (.scope closed rfl laidOut .nil)
  exact whole

theorem step {statement : Statement} (stepped : before.step point statement = .ok after) :
    after.Unrolled (point + 1) := by
  obtain ⟨action, loc⟩ := statement
  simp only [Builder.step] at stepped
  split at stepped
  · cases stepped
    exact unrolled.enter wellFormed loc
  · exact unrolled.exit wellFormed stepped
  · rw [bind_eq_ok_iff] at stepped
    obtain ⟨⟨middle, effect⟩, resolved, same⟩ := stepped
    cases same
    have frames := frame?_resolve resolved
    have extended := (resolve_targets resolved).1.extended
    exact unrolled.addPoint wellFormed frames extended.openScopes

end Unrolled

end Builder

namespace CodeUnit

variable {unit : CodeUnit} {tree : ScopeTree}

/-- Laid out flat, the outermost scope of a unit is the unit. -/
theorem flattens_root (built : unit.scopeTree = .ok tree) :
    ∃ root, tree.scopes[ScopeTree.rootId]? = some root ∧
      Flattens (tree.scopes[·]?) root.items (List.range unit.statements.length) := by
  obtain ⟨same, last, reached, wellFormed, finished⟩ := finish_of_scopeTree built
  obtain ⟨found, known, unrolls⟩ : last.Unrolled unit.statements.length := by
    refine builderAt_induction (fun point builder => builder.Unrolled point)
      Builder.unrolled_empty ?_ (Nat.le_refl _) reached
    intro point statement before after listed earlier stepped unrolled
    have inside := Nat.le_of_lt (List.getElem?_eq_some_iff.mp listed).1
    exact unrolled.step (wellFormed_builderAt inside earlier) stepped
  subst same
  obtain ⟨_, _, _, _, scopes⟩ := Builder.finish_cases finished
  have rooted := (Builder.Leads.root_of_finish wellFormed finished).1
  have isRoot : last.current = ScopeTree.rootId := (List.cons.inj rooted).1
  rw [isRoot] at known
  rw [rooted] at unrolls
  obtain ⟨root, listed, rfl⟩ := Option.map_eq_some_iff.mp known
  refine ⟨{ root with exit := some tree.unit.endPoint }, ?_, ?_⟩
  · rw [scopes, List.getElem?_modify, listed]
    rfl
  · refine unrolls.flattens.mono ?_
    intro id scope stop ends ended
    -- The outermost scope is open, so it is not among those that have ended before.
    have notRoot : ScopeTree.rootId ≠ id := by
      rintro rfl
      have isOpen : ScopeTree.rootId ∈ last.openScopes := rooted ▸ List.mem_singleton_self _
      rw [wellFormed.exit_eq_none isOpen ends] at ended
      cases ended
    obtain ⟨entry, entryListed, rfl⟩ := Option.map_eq_some_iff.mp ends
    refine ⟨entry, ?_, rfl, ended, rfl⟩
    rw [scopes, List.getElem?_modify, entryListed]
    exact congrArg some (if_neg notRoot)

end CodeUnit

end LoanCheck
