import LoanCheck.Proofs.Check.Composition
import LoanCheck.Proofs.Check.Environment
import LoanCheck.Proofs.Check.Operations

/-!
# Nothing stops the walk

No statement of a unit meets a set that refuses a borrow or lacks one, because the sets agree with
the borrows from statement to statement (`Ledger.Consistent`).  Nor does it look up a place or a
scope that is not there: its own places are in the tree, and those the state tells of were places
of earlier statements (`State.Within`).
-/

namespace LoanCheck

namespace State

section Consistent

variable (context : Context) {state : State} (consistent : state.ledger.Consistent)

include consistent

theorem tryEnd_eq_ok (ids : List BorrowId) (point : Point) :
    state.tryEnd ids point = .ok { state with ledger := state.ledger.retireAll ids point } := by
  rw [tryEnd, consistent.tryRetireAll_eq_ok]
  rfl

theorem tryRetireHeldBy_eq_ok (holder : PlaceId) (point : Point) :
    state.tryRetireHeldBy holder point = .ok (state.retireHeldBy holder point) :=
  tryEnd_eq_ok consistent (state.ledger.heldIds holder) point

theorem tryDropPlace_eq_ok (place : PlaceId) (point : Point) (span : Span) :
    tryDropPlace context state place point span =
      .ok (dropPlace context state place point span) := by
  have released := (retireHeldBy_becomes state place point).consistent consistent
  rw [tryDropPlace, bind_of_ok (tryRetireHeldBy_eq_ok consistent place point),
    bind_of_ok (tryCheckDrop_eq_ok context released place point span)]
  rfl

theorem tryOverwrite_eq_ok (place : PlaceId) (point : Point) (span : Span) :
    tryOverwrite context state place point span =
      .ok (overwrite context state place point span) := by
  rw [tryOverwrite, tryRetireHeldBy_eq_ok consistent]
  rfl

theorem tryDeclareFresh_eq_ok (place : PlaceId) (shadowed : Option PlaceId) (point : Point)
    (span : Span) :
    tryDeclareFresh context state place shadowed point span =
      .ok (declareFresh context state place shadowed point span) := by
  cases shadowed with
  | none => rfl
  | some old =>
      rw [tryDeclareFresh, bind_of_ok (tryDropPlace_eq_ok context consistent old point span)]
      rfl

theorem tryAssignTarget_eq_ok (target : Target) (point : Point) (span : Span) :
    tryAssignTarget context state target point span =
      .ok (assignTarget context state target point span) := by
  cases target with
  | fresh place shadowed rebinds =>
      rw [tryAssignTarget,
        bind_of_ok (tryDeclareFresh_eq_ok context consistent place shadowed point span)]
      rfl
  | existing place =>
      rw [tryAssignTarget, bind_of_ok (tryOverwrite_eq_ok context consistent place point span)]
      rfl

theorem tryRebindTarget_eq_ok (target : Target) (mutable copy : Flag) (point : Point)
    (span : Span) :
    tryRebindTarget context state target mutable copy point span =
      .ok (rebindTarget context state target mutable copy point span) := by
  cases target with
  | fresh place shadowed rebinds =>
      simp only [tryRebindTarget, tryDeclareFresh_eq_ok context consistent]
      rfl
  | existing place =>
      simp only [tryRebindTarget, tryRetireHeldBy_eq_ok consistent]
      split <;> rfl

theorem tryBind_eq_ok (target : Target) (source : Option Use) (mutable copy : Flag)
    (point : Point) (span : Span) :
    tryBind context state target source mutable copy point span =
      .ok (bind context state target source mutable copy point span) := by
  cases source with
  | none =>
      simp only [tryBind, tryRebindTarget_eq_ok context consistent]
      rfl
  | some use =>
      have taken := (takeSource_becomes context state use point span).consistent consistent
      simp only [tryBind, tryRebindTarget_eq_ok context taken]
      rfl

theorem tryMove_eq_ok (target : Target) (source : Use) (point : Point) (span : Span) :
    tryMove context state target source point span =
      .ok (move context state target source point span) := by
  have taken := (takeSource_becomes context state source point span).consistent consistent
  simp only [tryMove, tryAssignTarget_eq_ok context taken]
  rfl

theorem tryBorrow_eq_ok (kind : BorrowKind) (target : Target) (source : Use) (point : Point)
    (span : Span) :
    tryBorrow context state kind target source point span =
      .ok (borrow context state kind target source point span) := by
  have used := (liveUse_becomes context state source point span).consistent consistent
  simp only [tryBorrow, borrow]
  generalize liveUse context state source point span = result at used
  obtain ⟨next, live⟩ := result
  cases live with
  | false =>
      simp only [Bool.false_eq_true, if_false]
      rw [bind_of_ok (tryAssignTarget_eq_ok context used target point span)]
      rfl
  | true =>
      have checked := (checkReferent_becomes context next kind source.place point span).consistent
        used
      have assigned := (assignTarget_becomes context _ target point span).consistent checked
      simp only [if_true]
      rw [bind_of_ok (tryAssignTarget_eq_ok context checked target point span)]
      exact tryLend_eq_ok context assigned source.place kind target.place point span

theorem tryConsume_eq_ok (source : Use) (point : Point) (span : Span) :
    tryConsume context state source point span =
      .ok (consume context state source point span) := by
  have used := (liveUse_becomes context state source point span).consistent consistent
  simp only [tryConsume, consume]
  generalize liveUse context state source point span = result at used
  obtain ⟨next, live⟩ := result
  cases live with
  | false => rfl
  | true =>
      have consumed := (consumeSource_becomes context next source.place point span
        "consume").consistent used
      exact tryRetireHeldBy_eq_ok consumed source.place (point + 1)

theorem tryExitScope_eq_ok (scope : ScopeId) (point : Point) (span : Span) :
    tryExitScope context state scope point span =
      .ok (exitScope context state scope point span) := by
  have release := foldlM_eq_ok (fun state : State => state.ledger.Consistent)
    (fun _ place inOrder => tryRetireHeldBy_eq_ok inOrder place point)
    (fun state place inOrder => (retireHeldBy_becomes state place point).consistent inOrder)
  have drop := foldlM_eq_ok (fun state : State => state.ledger.Consistent)
    (fun _ place inOrder => tryDropPlace_eq_ok context inOrder place point span)
    (fun state place inOrder =>
      (dropPlace_becomes context state place point span).consistent inOrder)
  simp only [tryExitScope]
  rw [bind_of_ok (release _ consistent)]
  exact drop _ ((foldl_retireHeldBy_becomes _ point state).consistent consistent)

theorem tryStep_eq_ok (resolution : Resolution) :
    tryStep context state resolution = .ok (step context state resolution) := by
  obtain ⟨point, scope, span, effect⟩ := resolution
  cases effect with
  | enter => rfl
  | exit closes => exact tryExitScope_eq_ok context consistent closes point span
  | bind target source mutable copy =>
      exact tryBind_eq_ok context consistent target source mutable copy point span
  | declare target =>
      exact tryDeclareFresh_eq_ok context consistent target.place target.shadowed? point span
  | move target source => exact tryMove_eq_ok context consistent target source point span
  | borrow kind target source =>
      exact tryBorrow_eq_ok context consistent kind target source point span
  | write source => rfl
  | read source => rfl
  | consume source => exact tryConsume_eq_ok context consistent source point span

theorem tryRetireDead_eq_ok (point : Point) :
    tryRetireDead context state point = .ok (retireDead context state point) := by
  cases known : context.liveness with
  | none => simp only [tryRetireDead, retireDead, known]
  | some liveness =>
      simp only [tryRetireDead, retireDead, known]
      exact tryEnd_eq_ok consistent _ _

theorem consistent_step (resolution : Resolution) :
    (step context state resolution).ledger.Consistent := by
  rcases step_cases context state resolution with
    becomes | ⟨kind, target, source, ready, lends, inside, becomes, admitted, stepped⟩
  · exact becomes.consistent consistent
  · rw [stepped]
    exact (becomes.consistent consistent).lend context.tree target.place resolution.point
      resolution.loc admitted

end Consistent

end State

theorem Table.isSome_get?_iff {Alpha : Type} (table : Table Alpha) (index : Nat) :
    (table.get? index).isSome = true ↔ index ∈ table.map Prod.fst := by
  induction table with
  | nil => simp [get?]
  | cons entry rest inductionHypothesis =>
      obtain ⟨other, value⟩ := entry
      by_cases same : index = other
      · simp [get?, same]
      · simp [get?, same, inductionHypothesis]

/-- A statement leaves a borrow with its referent, and with its holder or the place that its
reference is passed on to. -/
theorem Borrow.settled_places (tree : ScopeTree) (point : Point) (settlement : Settlement)
    (borrow : Borrow) :
    (borrow.settled tree point settlement).referent = borrow.referent ∧
      ((borrow.settled tree point settlement).holder = borrow.holder ∨
        ∃ source dest, settlement.passed = some (source, dest) ∧
          (borrow.settled tree point settlement).holder = dest) := by
  refine ⟨(continues_settled tree point settlement borrow).referent, ?_⟩
  rw [settled, Function.comp_apply, Function.comp_apply, endedIf_holder]
  cases passed : settlement.passed with
  | none => exact .inl (endedBy_holder settlement point borrow)
  | some pair =>
      obtain ⟨source, dest⟩ := pair
      simp only [passedAlong, passedOn]
      split
      · exact .inr ⟨source, dest, rfl, rfl⟩
      · exact .inl (endedBy_holder settlement point borrow)

namespace State

variable {context : Context} {state : State}

theorem target_of_passed {effect : Effect} {source dest : PlaceId}
    (passed : (state.settlement context effect).passed = some (source, dest)) :
    ∃ target, effect.target? = some target ∧ target.place = dest := by
  have passes : ∀ {use : Use} {target : Target},
      context.tree.passes? use target = some (source, dest) → target.place = dest := by
    intro use target passed
    rw [ScopeTree.passes?] at passed
    split at passed
    · exact congrArg Prod.snd (Option.some.inj passed)
    · cases passed
  cases effect with
  | bind target use mutable copy =>
      obtain ⟨use, rfl, passed⟩ := Option.bind_eq_some_iff.mp passed
      exact ⟨target, rfl, passes passed⟩
  | move target use => exact ⟨target, rfl, passes passed⟩
  | _ => cases passed

theorem mem_places_iff {place : PlaceId} :
    place ∈ state.places ↔ state.ownership.Has place ∨
      ∃ borrow ∈ state.ledger.borrows, place = borrow.referent ∨ place = borrow.holder := by
  simp [places, Ownership.Has, Table.isSome_get?_iff]

/-- After a statement the state tells of no other places than before, except its own. -/
theorem mem_places_step (consistent : state.ledger.Consistent) {resolution : Resolution}
    {place : PlaceId} (told : place ∈ (step context state resolution).places) :
    place ∈ resolution.effect.places context.tree ++ state.places := by
  rw [List.mem_append]
  rcases mem_places_iff.mp told with has | ⟨borrow, listed, isPlace⟩
  · rw [step_ownership] at has
    rcases Ownership.has_after_cases has with
      old | ⟨target, given, isPlace⟩ | ⟨source, taken, _, rfl⟩ | ⟨scope, closes, inScope⟩
    · exact .inr (mem_places_iff.mpr (.inl old))
    · left
      rcases isPlace with rfl | hidden
      · simp [Effect.places, given]
      · simp [Effect.places, given, hidden]
    · left
      simp [Effect.places, Effect.source?_of_takes? taken]
    · left
      simp [Effect.places, closes, inScope]
  · rcases mem_step context consistent listed with
      ⟨old, known, rfl⟩ | ⟨kind, target, referent, id, lends, rfl⟩
    · have settled := Borrow.settled_places context.tree resolution.point
        (state.settlement context resolution.effect) old
      rw [settled.1] at isPlace
      rcases isPlace with rfl | rfl
      · exact .inr (mem_places_iff.mpr (.inr ⟨old, known, .inl rfl⟩))
      · rcases settled.2 with same | ⟨source, dest, passed, same⟩
        · rw [same]
          exact .inr (mem_places_iff.mpr (.inr ⟨old, known, .inr rfl⟩))
        · obtain ⟨target, given, isTarget⟩ := target_of_passed passed
          rw [same, ← isTarget]
          simp [Effect.places, given]
    · left
      rcases isPlace with rfl | rfl
      · simp [Effect.places, lends, Effect.source?]
      · simp [Effect.places, lends, Effect.target?]

theorem places_retireDead (consistent : state.ledger.Consistent) (point : Point) :
    (retireDead context state point).places = state.places := by
  have becomes := retireDead_becomes context state point
  rw [places, becomes.ownership, becomes.borrows consistent, List.flatMap_map]
  simp [places]

end State

theorem ScopeTree.lookUpPlaces_eq_ok {tree : ScopeTree} {places : List PlaceId}
    (listed : ∀ place ∈ places, place < tree.places.length) :
    tree.lookUpPlaces places = .ok () := by
  have found : places.find? (fun place => tree.places.length ≤ place) = none := by
    simpa using listed
  rw [lookUpPlaces, found]

/-- The places that a statement looks up and the scope that it ends are there. -/
structure Effect.Listed (tree : ScopeTree) (effect : Effect) : Prop where
  closes : ∀ scope, effect.closes? = some scope → scope < tree.scopes.length
  places : ∀ place ∈ effect.places tree, place < tree.places.length

theorem Effect.Within.listed {tree : ScopeTree} {effect : Effect} (within : effect.Within tree) :
    effect.Listed tree := by
  refine ⟨fun scope closes => (within.closes scope closes).2.1, ?_⟩
  intro place told
  simp only [places, List.mem_append, List.mem_map, List.mem_flatMap, Option.mem_toList,
    List.mem_cons] at told
  rcases told with (⟨use, source, rfl⟩ | ⟨target, given, isPlace⟩) | ⟨scope, closes, inScope⟩
  · exact within.source use source
  · rcases isPlace with rfl | hidden
    · exact (within.target target given).1
    · exact (within.target target given).2 place hidden
  · exact (within.closes scope closes).2.2 place inScope

namespace State

/-- The places that a state tells of are there. -/
def Within (tree : ScopeTree) (state : State) : Prop :=
  ∀ place ∈ state.places, place < tree.places.length

variable {context : Context} {state : State} {resolution : Resolution}
  (consistent : state.ledger.Consistent) (within : state.Within context.tree)
  (listed : resolution.effect.Listed context.tree)

include consistent within listed

theorem Within.step : (step context state resolution).Within context.tree := by
  intro place told
  rcases List.mem_append.mp (mem_places_step consistent told) with own | old
  · exact listed.places place own
  · exact within place old

theorem attempt_eq_ok :
    state.attempt context resolution = .ok (step context state resolution) := by
  have scopes : context.tree.lookUpScopes resolution.effect.closes?.toList = .ok () := by
    have found : resolution.effect.closes?.toList.find?
        (fun scope => context.tree.scopes.length ≤ scope) = none := by
      simpa using listed.closes
    rw [ScopeTree.lookUpScopes, found]
  have places : context.tree.lookUpPlaces
      (resolution.effect.places context.tree ++ state.places) = .ok () := by
    apply ScopeTree.lookUpPlaces_eq_ok
    intro place told
    rcases List.mem_append.mp told with own | old
    · exact listed.places place own
    · exact within place old
  rw [attempt, bind_of_ok scopes, bind_of_ok places, tryStep_eq_ok context consistent]
  rfl

theorem Within.advance : (context.advance state resolution).Within context.tree := by
  rw [Within, Context.advance, places_retireDead (consistent_step context consistent resolution)]
  exact within.step consistent listed

theorem tryAdvance_eq_ok :
    state.tryAdvance context resolution = .ok (context.advance state resolution) := by
  rw [tryAdvance, bind_of_ok (attempt_eq_ok consistent within listed),
    tryRetireDead_eq_ok context (consistent_step context consistent resolution)]
  rfl

end State

end LoanCheck
