import LoanCheck.Proofs.Scope.WellFormed

/-!
# What a statement does to the places that can be named

`Builder.Transition` says, for the resolution of a statement, which places can be named
before and after it.  `step_cases` gives it for every statement the builder takes, so later
proofs need not look into the builder.
-/

namespace LoanCheck

/-- The target and the source of a statement that moves a value between places. -/
def Effect.passes? : Effect → Option (Target × Use)
  | .bind target source _ _ => source.map (target, ·)
  | .move target source => some (target, source)
  | _ => none

theorem Effect.passes?_cases {effect : Effect} {target : Target} {source : Use}
    (passes : effect.passes? = some (target, source)) :
    (∃ mutable copy, effect = .bind target (some source) mutable copy) ∨
      effect = .move target source := by
  cases effect with
  | bind given operand mutable copy =>
      obtain ⟨use, rfl, pair⟩ := Option.map_eq_some_iff.mp passes
      cases pair
      exact .inl ⟨mutable, copy, rfl⟩
  | move given use =>
      cases passes
      exact .inr rfl
  | _ => cases passes

theorem Effect.target?_of_passes? {effect : Effect} {target : Target} {source : Use}
    (passes : effect.passes? = some (target, source)) : effect.target? = some target := by
  rcases passes?_cases passes with ⟨mutable, copy, rfl⟩ | rfl
  · rfl
  · rfl

namespace Builder

/-- A target is a place that can be named, or a new one. -/
inductive Placed (before : Builder) (point : Point) (after : Builder) : Target → Prop where
  | existing {place : PlaceId} (live : before.Live place) (alike : Alike before after) :
      Placed before point after (.existing place)
  | fresh (name : Name) (key : Key) (mutable copy : Flag) (deferred rebinds : Bool)
      (alike : Alike (before.declare point name key mutable copy deferred rebinds).1 after) :
      Placed before point after
        (.fresh before.places.length (before.inScope? key before.current) rebinds)

section Placed

variable {before middle after : Builder} {point : Point} {loc : Span} {target : Target}

theorem Placed.trans (placed : Placed before point middle target) (alike : Alike middle after) :
    Placed before point after target := by
  cases placed with
  | existing live same => exact .existing live (same.trans alike)
  | fresh name key mutable copy deferred rebinds same =>
      exact .fresh name key mutable copy deferred rebinds (same.trans alike)

theorem declare_cases (before : Builder) (point : Point) (name : Name) (key : Key)
    (mutable copy : Flag) (deferred rebinds : Bool) :
    let declared := before.declare point name key mutable copy deferred rebinds
    Placed before point declared.1 declared.2 ∧ declared.1.holding? = before.holding? ∧
      declared.1.resolved = before.resolved :=
  ⟨.fresh name key mutable copy deferred rebinds (Alike.refl _),
    funext fun place => holding?_declare before point name key mutable copy deferred rebinds place,
    rfl⟩

/-- Finding or declaring the target leaves alone what places hold and what was resolved. -/
theorem assign_cases {name : Name}
    (assigned : before.assign point name = .ok (after, target)) :
    Placed before point after target ∧ after.holding? = before.holding? ∧
      after.resolved = before.resolved := by
  simp only [assign, bind_eq_ok_iff] at assigned
  rcases assigned with ⟨key, _, chosen⟩
  split at chosen
  · next place visible =>
      split at chosen
      · cases chosen
        exact ⟨.existing (visible?_live visible) (Alike.refl _), rfl, rfl⟩
      · cases chosen
        exact declare_cases before point name key _ _ _ _
  · cases chosen
    exact declare_cases before point name key _ _ _ _

theorem bindTarget_cases {name : Name} {mutable shadow copy : Flag} {holding : Option Holding}
    (bound : before.bindTarget point name mutable shadow copy holding = .ok (after, target)) :
    Placed before point after target ∧ after.holding? = before.holding? ∧
      after.resolved = before.resolved := by
  simp only [bindTarget, bind_eq_ok_iff] at bound
  rcases bound with ⟨key, _, chosen⟩
  split at chosen
  · next place named =>
      split at chosen
      · cases chosen
        exact ⟨.existing (inScope?_live named) (Alike.refl _), rfl, rfl⟩
      · cases chosen
        exact declare_cases before point name key _ _ _ _
  · cases chosen
    exact declare_cases before point name key _ _ _ _

namespace Placed

variable (wellFormed : before.WellFormed point) (placed : Placed before point after target)

include placed

theorem existing_live {place : PlaceId} (same : target = .existing place) :
    before.Live place := by
  cases placed with
  | existing live alike =>
      cases same
      exact live
  | fresh => cases same

theorem declared {place : PlaceId} {shadowed : Option PlaceId} {rebinds : Bool}
    (same : target = .fresh place shadowed rebinds) :
    before.declared? place = none ∧
      ∃ found, after.declared? place = some found ∧ found.point = point := by
  cases placed with
  | existing => cases same
  | fresh name key mutable copy deferred rebinds alike =>
      cases same
      refine ⟨declared?_length before, ?_⟩
      rw [alike.declarations, declared?_declare, if_pos rfl]
      exact ⟨_, rfl, rfl⟩

theorem shadowed_live {place : PlaceId} (shadowed : target.shadowed? = some place) :
    before.Live place := by
  cases placed with
  | existing => cases shadowed
  | fresh => exact inScope?_live shadowed

theorem declarations {place : PlaceId} {found : Place}
    (known : before.declared? place = some found) :
    after.declared? place = some found := by
  cases placed with
  | existing live alike =>
      rw [alike.declarations]
      exact known
  | fresh name key mutable copy deferred rebinds alike =>
      have old : place ≠ before.places.length := by
        rintro rfl
        simp at known
      rw [alike.declarations, declared?_declare, if_neg old]
      exact known

theorem openScopes : after.openScopes = before.openScopes := by
  cases placed with
  | existing live alike => exact alike.openScopes
  | fresh name key mutable copy deferred rebinds alike => exact alike.openScopes

theorem starts : after.startOf? = before.startOf? := by
  cases placed with
  | existing live alike => exact alike.starts
  | fresh name key mutable copy deferred rebinds alike =>
      rw [alike.starts]
      funext scope
      exact startOf?_declare before point name key mutable copy deferred rebinds scope

theorem ends : after.endOf? = before.endOf? := by
  cases placed with
  | existing live alike => exact alike.ends
  | fresh name key mutable copy deferred rebinds alike =>
      rw [alike.ends]
      funext scope
      exact endOf?_declare before point name key mutable copy deferred rebinds scope

include wellFormed

theorem target_live : after.Live target.place := by
  cases placed with
  | existing live alike => exact (alike.live_iff _).mpr live
  | fresh name key mutable copy deferred rebinds alike =>
      rw [alike.live_iff, wellFormed.live_declare_iff]
      exact .inl rfl

/-- Giving a target its value hides nothing but what it shadows. -/
theorem live_after {place : PlaceId} (live : before.Live place) :
    after.Live place ∨ target.shadowed? = some place := by
  cases placed with
  | existing _ alike => exact .inl ((alike.live_iff place).mpr live)
  | fresh name key mutable copy deferred rebinds alike =>
      rw [alike.live_iff, wellFormed.live_declare_iff]
      by_cases shadowed : before.inScope? key before.current = some place
      · exact .inr shadowed
      · exact .inl (.inr ⟨live, shadowed⟩)

theorem live_before {place : PlaceId} (live : after.Live place) :
    (before.Live place ∧ target.shadowed? ≠ some place) ∨
      ∃ shadowed rebinds, target = .fresh place shadowed rebinds := by
  cases placed with
  | existing _ alike => exact .inl ⟨(alike.live_iff place).mp live, nofun⟩
  | fresh name key mutable copy deferred rebinds alike =>
      rw [alike.live_iff, wellFormed.live_declare_iff] at live
      rcases live with rfl | old
      · exact .inr ⟨_, _, rfl⟩
      · exact .inl old

theorem wellFormed_after : after.WellFormed (point + 1) := by
  cases placed with
  | existing live alike => exact wellFormed.later.of_alike alike
  | fresh name key mutable copy deferred rebinds alike =>
      exact (wellFormed.declare name key mutable copy deferred rebinds).of_alike alike

end Placed

end Placed

/-- The places that can be named before and after a statement with the given effect. -/
structure Transition (before : Builder) (point : Point) (effect : Effect) (after : Builder) :
    Prop where
  /-- An operand that has not escaped can be named. -/
  source_live : ∀ use, effect.source? = some use → use.escaped = false → before.Live use.place
  /-- A place that is assigned or bound again can be named. -/
  existing_live : ∀ place, effect.target? = some (.existing place) → before.Live place
  target_live : ∀ target, effect.target? = some target → after.Live target.place
  /-- A new place is declared by the statement and not before. -/
  fresh : ∀ place shadowed rebinds, effect.target? = some (.fresh place shadowed rebinds) →
    before.declared? place = none ∧
      ∃ found, after.declared? place = some found ∧ found.point = point
  shadowed_live : ∀ place shadowed rebinds,
    effect.target? = some (.fresh place (some shadowed) rebinds) → before.Live shadowed
  /-- A place stops being named only by being shadowed or by the end of its scope. -/
  live_after : ∀ place, before.Live place → after.Live place ∨
    (∃ target, effect.target? = some target ∧ target.shadowed? = some place) ∨
    (∃ scope, effect.closes? = some scope ∧ place ∈ before.placesIn scope)
  live_before : ∀ place, after.Live place →
    (before.Live place ∧
      (∀ target, effect.target? = some target → target.shadowed? ≠ some place) ∧
      ∀ scope, effect.closes? = some scope → place ∉ before.placesIn scope) ∨
    ∃ shadowed rebinds, effect.target? = some (.fresh place shadowed rebinds)
  closes : ∀ scope, effect.closes? = some scope →
    before.openScopes = scope :: after.openScopes ∧ after.endOf? scope = some point
  open_after : ∀ scope ∈ before.openScopes,
    scope ∈ after.openScopes ∨ effect.closes? = some scope
  declarations : ∀ place found, before.declared? place = some found →
    after.declared? place = some found
  starts : ∀ scope start, before.startOf? scope = some start → after.startOf? scope = some start
  ends : ∀ scope stop, before.endOf? scope = some stop → after.endOf? scope = some stop
  holdings : ∀ place holding, before.holding? place = some holding →
    after.holding? place = some holding
  /-- What is given a reference holds a reference. -/
  references : ∀ target source, effect.passes? = some (target, source) →
    before.holding? source.place = some .reference → after.holding? target.place = some .reference
  borrows : ∀ kind target source, effect = .borrow kind target source →
    after.holding? target.place = some .reference
  /-- A declaration makes a new place. -/
  declares : ∀ target, effect = .declare target → target.declares = true

section Transition

variable {before after : Builder} {point : Point} {loc : Span} {effect : Effect}

theorem transition_enter : Transition before point .enter (before.enter point loc) := by
  have live : ∀ place, (before.enter point loc).Live place ↔ before.Live place := by
    intro place
    simp only [Live, inScope?_enter, openScopes_enter, List.mem_cons]
    constructor
    · rintro ⟨scope, rfl | isOpen, key, named⟩
      · simp [inScope?_eq, outline?_length] at named
      · exact ⟨scope, isOpen, key, named⟩
    · rintro ⟨scope, isOpen, key, named⟩
      exact ⟨scope, .inr isOpen, key, named⟩
  constructor
  case live_after => exact fun place isLive => .inl ((live place).mpr isLive)
  case live_before =>
    intro place isLive
    exact .inl ⟨(live place).mp isLive, by simp [Effect.target?], by simp [Effect.closes?]⟩
  case open_after => exact fun scope isOpen => .inl (List.mem_cons_of_mem _ isOpen)
  case declarations => exact fun place found declared => declared
  case starts =>
    intro scope start started
    have old : scope ≠ before.scopes.length := by
      rintro rfl
      simp [startOf?, outline?_length] at started
    rw [startOf?_enter, if_neg old]
    exact started
  case ends =>
    intro scope stop ended
    rw [endOf?_enter]
    exact ended
  case holdings => exact fun place holding held => held
  all_goals simp [Effect.source?, Effect.target?, Effect.closes?, Effect.passes?]

theorem transition_exit (wellFormed : before.WellFormed point)
    (left : before.exit point loc = .ok after) :
    Transition before point (.exit before.current) after := by
  have scopes := (exit_cases left).1
  have distinct := wellFormed.nodup
  rw [scopes, List.nodup_cons] at distinct
  constructor
  case live_after =>
    rintro place ⟨scope, isOpen, key, named⟩
    rw [scopes, List.mem_cons] at isOpen
    rcases isOpen with rfl | stays
    · rcases wellFormed.named key _ place named with ⟨found, declared, inCurrent, _⟩
      exact .inr (.inr ⟨_, rfl, (wellFormed.listed _ place).mpr ⟨found, declared, inCurrent⟩⟩)
    · exact .inl ⟨scope, stays, key, by rw [names_exit left]; exact named⟩
  case live_before =>
    rintro place ⟨scope, isOpen, key, named⟩
    rw [names_exit left] at named
    refine .inl ⟨⟨scope, by rw [scopes]; exact List.mem_cons_of_mem _ isOpen, key, named⟩,
      by simp [Effect.target?], ?_⟩
    intro closing same listed
    cases same
    rcases wellFormed.named key scope place named with ⟨found, declared, rfl, _⟩
    rcases (wellFormed.listed _ place).mp listed with ⟨other, otherDeclared, inCurrent⟩
    rw [declared, Option.some.injEq] at otherDeclared
    subst otherDeclared
    exact distinct.1 (inCurrent ▸ isOpen)
  case closes =>
    intro scope same
    cases same
    exact ⟨scopes, by rw [endOf?_exit left wellFormed.current_lt, if_pos rfl]⟩
  case open_after =>
    intro scope isOpen
    rw [scopes, List.mem_cons] at isOpen
    rcases isOpen with rfl | stays
    · exact .inr rfl
    · exact .inl stays
  case declarations =>
    rw [declared?_exit left]
    exact fun place found declared => declared
  case starts =>
    rw [startOf?_exit left]
    exact fun scope start started => started
  case ends =>
    intro scope stop ended
    have other : scope ≠ before.current := by
      rintro rfl
      rw [wellFormed.unended _ List.mem_cons_self] at ended
      cases ended
    rw [endOf?_exit left wellFormed.current_lt, if_neg other]
    exact ended
  case holdings =>
    intro place holding held
    simp only [holding?, (exit_cases left).2.2.1]
    exact held
  all_goals simp [Effect.source?, Effect.target?, Effect.passes?]

/-- A statement without a target changes no name. -/
theorem transition_of_alike (alike : Alike before after) (targetless : effect.target? = none)
    (stays : effect.closes? = none)
    (source_live : ∀ use, effect.source? = some use → use.escaped = false →
      before.Live use.place)
    (holdings : after.holding? = before.holding?) :
    Transition before point effect after := by
  constructor
  case source_live => exact source_live
  case live_after => exact fun place live => .inl ((alike.live_iff place).mpr live)
  case live_before =>
    intro place live
    exact .inl ⟨(alike.live_iff place).mp live, by simp [targetless], by simp [stays]⟩
  case open_after =>
    rw [alike.openScopes]
    exact fun scope isOpen => .inl isOpen
  case declarations =>
    rw [alike.declarations]
    exact fun place found declared => declared
  case starts =>
    rw [alike.starts]
    exact fun scope start started => started
  case ends =>
    rw [alike.ends]
    exact fun scope stop ended => ended
  case holdings =>
    rw [holdings]
    exact fun place holding held => held
  case references =>
    intro target source passed
    cases effect <;> simp [Effect.target?, Effect.passes?] at targetless passed
  case borrows =>
    rintro kind target source rfl
    simp [Effect.target?] at targetless
  case declares =>
    rintro target rfl
    simp [Effect.target?] at targetless
  all_goals simp [targetless, stays]

/-- A statement with a target lets that be named, and shadows what had its name. -/
theorem transition_of_placed {target : Target} (wellFormed : before.WellFormed point)
    (placed : Placed before point after target) (given : effect.target? = some target)
    (stays : effect.closes? = none)
    (source_live : ∀ use, effect.source? = some use → use.escaped = false →
      before.Live use.place)
    (holdings : ∀ place holding, before.holding? place = some holding →
      after.holding? place = some holding)
    (references : ∀ source, effect.passes? = some (target, source) →
      before.holding? source.place = some .reference →
        after.holding? target.place = some .reference)
    (borrows : ∀ kind source, effect = .borrow kind target source →
      after.holding? target.place = some .reference)
    (declares : effect = .declare target → target.declares = true) :
    Transition before point effect after := by
  have only : ∀ other, effect.target? = some other → target = other :=
    fun other same => Option.some.inj (given.symm.trans same)
  constructor
  case source_live => exact source_live
  case existing_live => exact fun place same => placed.existing_live (only _ same)
  case target_live =>
    intro other same
    rw [← only other same]
    exact placed.target_live wellFormed
  case fresh => exact fun place shadowed rebinds same => placed.declared (only _ same)
  case shadowed_live =>
    intro place shadowed rebinds same
    exact placed.shadowed_live (congrArg Target.shadowed? (only _ same))
  case live_after =>
    intro place live
    rcases placed.live_after wellFormed live with stays | shadowed
    · exact .inl stays
    · exact .inr (.inl ⟨target, given, shadowed⟩)
  case live_before =>
    intro place live
    rcases placed.live_before wellFormed live with ⟨old, notShadowed⟩ | ⟨shadowed, rebinds, same⟩
    · refine .inl ⟨old, ?_, by simp [stays]⟩
      intro other same
      rw [← only other same]
      exact notShadowed
    · exact .inr ⟨shadowed, rebinds, by rw [given, same]⟩
  case closes => simp [stays]
  case open_after =>
    rw [placed.openScopes]
    exact fun scope isOpen => .inl isOpen
  case declarations => exact fun place found known => placed.declarations known
  case starts =>
    rw [placed.starts]
    exact fun scope start started => started
  case ends =>
    rw [placed.ends]
    exact fun scope stop ended => ended
  case holdings => exact holdings
  case references =>
    intro other source passed
    have same := only other (Effect.target?_of_passes? passed)
    subst same
    exact references source passed
  case borrows =>
    rintro kind other source rfl
    have same := only other rfl
    subst same
    exact borrows kind source rfl
  case declares =>
    rintro other rfl
    have same := only other rfl
    subst same
    exact declares rfl

/-- Nothing in a transition depends on items or on what was resolved. -/
theorem Transition.of_alike {first last : Builder}
    (transition : Transition first point effect last)
    (alikeBefore : Alike before first) (holdingsBefore : first.holding? = before.holding?)
    (alikeAfter : Alike last after) (holdingsAfter : after.holding? = last.holding?) :
    Transition before point effect after := by
  have livesBefore := alikeBefore.live_iff
  have livesAfter := alikeAfter.live_iff
  constructor
  case source_live => simpa only [livesBefore] using transition.source_live
  case existing_live => simpa only [livesBefore] using transition.existing_live
  case target_live => simpa only [livesAfter] using transition.target_live
  case fresh =>
    simpa only [alikeBefore.declarations, alikeAfter.declarations] using transition.fresh
  case shadowed_live => simpa only [livesBefore] using transition.shadowed_live
  case live_after =>
    simpa only [livesBefore, livesAfter, alikeBefore.lists] using transition.live_after
  case live_before =>
    simpa only [livesBefore, livesAfter, alikeBefore.lists] using transition.live_before
  case closes =>
    simpa only [alikeBefore.openScopes, alikeAfter.openScopes, alikeAfter.ends] using
      transition.closes
  case open_after =>
    simpa only [alikeBefore.openScopes, alikeAfter.openScopes] using transition.open_after
  case declarations =>
    simpa only [alikeBefore.declarations, alikeAfter.declarations] using transition.declarations
  case starts => simpa only [alikeBefore.starts, alikeAfter.starts] using transition.starts
  case ends => simpa only [alikeBefore.ends, alikeAfter.ends] using transition.ends
  case holdings => simpa only [holdingsBefore, holdingsAfter] using transition.holdings
  case references => simpa only [holdingsBefore, holdingsAfter] using transition.references
  case borrows => simpa only [holdingsAfter] using transition.borrows
  case declares => exact transition.declares

theorem use_live {name : Name} {use : Use} (used : before.use point loc name = .ok use)
    (inside : use.escaped = false) : before.Live use.place := by
  simp only [Builder.use, bind_eq_ok_iff] at used
  rcases used with ⟨key, _, found⟩
  split at found
  · next place visible =>
      cases found
      exact visible?_live visible
  · split at found
    · split at found
      · cases found
        cases inside
      · cases found
    · cases found

/-- A place that is given something keeps what it held, and so do the others. -/
theorem holding?_of_hold {middle : Builder} {place other : PlaceId} {holding : Option Holding}
    {known : Holding} (held : middle.hold point loc place holding = .ok after)
    (was : middle.holding? other = some known) : after.holding? other = some known := by
  rw [holding?_hold held]
  split
  · next same =>
      rw [same.1] at was
      cases given : holding with
      | none => exact was
      | some new =>
          rw [(hold_cases held).2 known new was given]
          rfl
  · exact was

/-- The target of a statement is found or declared, and then given something. -/
theorem transition_of_hold {middle : Builder} {target : Target} {holding : Option Holding}
    (wellFormed : before.WellFormed point)
    (chosen : Placed before point middle target ∧ middle.holding? = before.holding? ∧
      middle.resolved = before.resolved)
    (held : middle.hold point loc target.place holding = .ok after)
    (given : effect.target? = some target) (stays : effect.closes? = none)
    (source_live : ∀ use, effect.source? = some use → use.escaped = false →
      before.Live use.place)
    (passes : ∀ source, effect.passes? = some (target, source) →
      holding = before.holding? source.place)
    (lends : ∀ kind source, effect = .borrow kind target source → holding = some .reference)
    (gives : effect ≠ .declare target) :
    Transition before point effect after ∧ after.WellFormed (point + 1) ∧
      after.resolved = before.resolved := by
  rcases chosen with ⟨placed, holdings, resolved⟩
  have declared : (middle.declared? target.place).isSome = true := by
    rcases (placed.wellFormed_after wellFormed).declared_of_live (placed.target_live wellFormed)
      with ⟨found, known, _⟩
    rw [known]
    rfl
  have reference : holding = some .reference → after.holding? target.place = some .reference := by
    rintro rfl
    rw [holding?_hold held, if_pos ⟨rfl, declared⟩]
    rfl
  have placedAfter := placed.trans (alike_hold held)
  refine ⟨transition_of_placed wellFormed placedAfter given stays source_live ?_ ?_ ?_
    fun declares => absurd declares gives, placedAfter.wellFormed_after wellFormed, ?_⟩
  · intro place known was
    exact holding?_of_hold held (by rw [holdings]; exact was)
  · intro source passed isReference
    exact reference ((passes source passed).trans isReference)
  · intro kind source same
    exact reference (lends kind source same)
  · rw [(hold_cases held).1]
    exact resolved

/-- A statement that only uses a place. -/
theorem transition_of_use {name : Name} {use : Use} (wellFormed : before.WellFormed point)
    (used : before.use point loc name = .ok use) (targetless : effect.target? = none)
    (stays : effect.closes? = none) (source : effect.source? = some use) :
    Transition before point effect before ∧ before.WellFormed (point + 1) ∧
      before.resolved = before.resolved := by
  refine ⟨transition_of_alike (Alike.refl before) targetless stays ?_ rfl, wellFormed.later, rfl⟩
  intro other same inside
  rw [source, Option.some.injEq] at same
  subst same
  exact use_live used inside

/-- Resolving a statement that is no scope marker. -/
theorem resolve_cases {action : Action} (wellFormed : before.WellFormed point)
    (notEnter : action ≠ .enter) (notExit : action ≠ .exit)
    (resolved : before.resolve point loc action = .ok (after, effect)) :
    Transition before point effect after ∧ after.WellFormed (point + 1) ∧
      after.resolved = before.resolved := by
  cases action with
  | enter => exact absurd rfl notEnter
  | exit => exact absurd rfl notExit
  | bind name mutable source shadow copy =>
      simp only [resolve, bind_eq_ok_iff] at resolved
      rcases resolved with ⟨use, used, ⟨middle, target⟩, chosen, next, held, same⟩
      cases same
      refine transition_of_hold wellFormed (bindTarget_cases chosen) held rfl rfl ?_ ?_ nofun nofun
      · rintro other rfl inside
        cases source with
        | none => cases used
        | some operand =>
            rw [Option.mapM_some, map_eq_ok_iff] at used
            rcases used with ⟨found, foundUsed, same⟩
            cases same
            exact use_live foundUsed inside
      · intro other passed
        rcases Option.map_eq_some_iff.mp passed with ⟨found, rfl, pair⟩
        cases pair
        rfl
  | declare name mutable copy =>
      simp only [resolve, bind_eq_ok_iff] at resolved
      rcases resolved with ⟨key, _, same⟩
      cases same
      have declared := declare_cases before point name key mutable copy true false
      refine ⟨transition_of_placed wellFormed declared.1 rfl rfl nofun ?_ nofun nofun
        (fun _ => rfl), declared.1.wellFormed_after wellFormed, declared.2.2⟩
      intro place holding held
      rw [declared.2.1]
      exact held
  | move dest src =>
      simp only [resolve, bind_eq_ok_iff] at resolved
      rcases resolved with ⟨use, used, ⟨middle, target⟩, chosen, next, held, same⟩
      cases same
      have found := assign_cases chosen
      refine transition_of_hold wellFormed found held rfl rfl ?_ ?_ nofun nofun
      · rintro other same inside
        cases same
        exact use_live used inside
      · intro other passed
        cases passed
        rw [found.2.1]
  | borrow kind dest referent =>
      simp only [resolve, bind_eq_ok_iff] at resolved
      rcases resolved with ⟨use, used, ⟨middle, target⟩, chosen, next, held, same⟩
      cases same
      refine transition_of_hold wellFormed (assign_cases chosen) held rfl rfl ?_ nofun
        (fun _ _ _ => rfl) nofun
      rintro other same inside
      cases same
      exact use_live used inside
  | write place =>
      simp only [resolve, bind_eq_ok_iff] at resolved
      rcases resolved with ⟨use, used, same⟩
      cases same
      exact transition_of_use wellFormed used rfl rfl rfl
  | read place =>
      simp only [resolve, bind_eq_ok_iff] at resolved
      rcases resolved with ⟨use, used, same⟩
      cases same
      exact transition_of_use wellFormed used rfl rfl rfl
  | consume place =>
      simp only [resolve, bind_eq_ok_iff] at resolved
      rcases resolved with ⟨use, used, same⟩
      cases same
      exact transition_of_use wellFormed used rfl rfl rfl

/-- Taking a statement keeps the scopes in order and makes the transition of what it was
resolved to. -/
theorem step_cases {statement : Statement} (wellFormed : before.WellFormed point)
    (stepped : before.step point statement = .ok after) :
    ∃ resolution, after.resolved = before.resolved ++ [resolution] ∧
      resolution.point = point ∧ resolution.loc = statement.loc ∧
      Transition before point resolution.effect after ∧ after.WellFormed (point + 1) := by
  simp only [step] at stepped
  split at stepped
  · cases stepped
    exact ⟨_, rfl, rfl, rfl, transition_enter, wellFormed.enter statement.loc⟩
  · exact ⟨_, (exit_cases stepped).2.2.2.2, rfl, rfl, transition_exit wellFormed stepped,
      wellFormed.exit stepped⟩
  · next notEnter notExit =>
      rw [bind_eq_ok_iff] at stepped
      rcases stepped with ⟨⟨middle, effect⟩, resolved, same⟩
      cases same
      have items := alike_addItem before (.point point)
      rcases resolve_cases (wellFormed.of_alike items) notEnter notExit resolved with
        ⟨transition, inOrder, unchanged⟩
      have recorded := alike_record middle point middle.current statement.loc effect
      exact ⟨_, congrArg (· ++ _) unchanged, rfl, rfl,
        transition.of_alike items rfl recorded rfl, inOrder.of_alike recorded⟩

end Transition

end Builder

end LoanCheck
