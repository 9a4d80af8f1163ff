import LoanCheck.Proofs.Scope.Statement
import Mathlib.Data.List.Basic
import Mathlib.Order.Bounds.Defs

/-!
# Which place a name leads to

Names are looked up in a stack of scopes, and then in one table of the scopes that have
ended.  What is found there can be said by declarations alone: in an open scope the place
of that name declared last, otherwise the last one of the scope that ended last.
-/

namespace LoanCheck

namespace Builder

/-- A place was declared in a scope under a name with the given key. -/
def KeyedIn (builder : Builder) (key : Key) (scope : ScopeId) (place : PlaceId) : Prop :=
  ∃ found, builder.declared? place = some found ∧ found.scope = scope ∧ found.key = key

/-- What is entered for a scope's places, in the order of their declarations. -/
def entriesOf (builder : Builder) (scope : ScopeId) : List (Key × PlaceId) :=
  (builder.placesIn scope).filterMap fun place =>
    (builder.declared? place).map fun found => (found.key, place)

/-- How the tables of names fit the declarations. -/
structure Indexed (builder : Builder) : Prop where
  keyed : ∀ place found, builder.declared? place = some found → found.name.key = .ok found.key
  latest : ∀ key scope place, builder.KeyedIn key scope place →
    ∃ last, builder.inScope? key scope = some last ∧ place ≤ last
  entries : ∀ scope found, builder.outline? scope = some found →
    found.names = (builder.entriesOf scope).reverse
  /-- An outer scope gains no place while an inner one is open. -/
  ordered : builder.openScopes.Pairwise fun inner outer =>
    ∀ first second key other, builder.KeyedIn key inner first →
      builder.KeyedIn other outer second → second < first
  /-- A name of an ended scope leads to the scope that ended last. -/
  closed : ∀ key place, builder.closed.lookup key = some place →
    ∃ scope stop, builder.endOf? scope = some stop ∧ builder.inScope? key scope = some place ∧
      ∀ other end_ found, builder.endOf? other = some end_ →
        builder.inScope? key other = some found → end_ ≤ stop
  remembered : ∀ key scope stop place, builder.endOf? scope = some stop →
    builder.inScope? key scope = some place → ∃ last, builder.closed.lookup key = some last

section Keyed

variable {builder first second : Builder} {key other : Key} {scope : ScopeId} {place : PlaceId}

theorem KeyedIn.lt_length (keyed : builder.KeyedIn key scope place) :
    place < builder.places.length := by
  obtain ⟨found, declared, _⟩ := keyed
  obtain ⟨entry, listed, _⟩ := Option.map_eq_some_iff.mp declared
  exact (List.getElem?_eq_some_iff.mp listed).1

theorem Alike.keyedIn (alike : Alike first second) : second.KeyedIn = first.KeyedIn := by
  funext key scope place
  simp only [KeyedIn, alike.declarations]

theorem Alike.entriesOf (alike : Alike first second) : second.entriesOf = first.entriesOf := by
  funext scope
  simp only [Builder.entriesOf, alike.lists, alike.declarations]

theorem keyedIn_declare (point : Point) (name : Name) (mutable copy : Flag)
    (deferred rebinds : Bool) :
    (builder.declare point name key mutable copy deferred rebinds).1.KeyedIn other scope place ↔
      (place = builder.places.length ∧ scope = builder.current ∧ other = key) ∨
        builder.KeyedIn other scope place := by
  simp only [KeyedIn, declared?_declare]
  by_cases new : place = builder.places.length
  · subst new
    simp [eq_comm]
  · simp [new]

theorem WellFormed.keyedIn_of_inScope? {point : Point} (wellFormed : builder.WellFormed point)
    (named : builder.inScope? key scope = some place) : builder.KeyedIn key scope place :=
  wellFormed.named key scope place named

theorem WellFormed.lt_of_endOf? {point stop : Point} (wellFormed : builder.WellFormed point)
    (ended : builder.endOf? scope = some stop) : stop < point := by
  obtain ⟨found, known, _⟩ := Option.bind_eq_some_iff.mp ended
  obtain ⟨entry, listed, _⟩ := Option.map_eq_some_iff.mp known
  have inside := (List.getElem?_eq_some_iff.mp listed).1
  by_cases isOpen : scope ∈ builder.openScopes
  · rw [wellFormed.unended scope isOpen] at ended
    cases ended
  · obtain ⟨last, alsoEnded, before⟩ := wellFormed.ended scope inside isOpen
    rw [ended, Option.some.injEq] at alsoEnded
    exact alsoEnded ▸ before

theorem entriesOf_declare {point : Point} (wellFormed : builder.WellFormed point) (name : Name)
    (key : Key) (mutable copy : Flag) (deferred rebinds : Bool) (scope : ScopeId) :
    (builder.declare point name key mutable copy deferred rebinds).1.entriesOf scope =
      if scope = builder.current then
        builder.entriesOf scope ++ [(key, builder.places.length)]
      else builder.entriesOf scope := by
  have old : ∀ place ∈ builder.placesIn scope,
      ((builder.declare point name key mutable copy deferred rebinds).1.declared? place).map
          (fun found => (found.key, place)) =
        (builder.declared? place).map fun found => (found.key, place) := by
    intro place listed
    obtain ⟨found, declared, _⟩ := (wellFormed.listed scope place).mp listed
    have notNew : place ≠ builder.places.length := by
      rintro rfl
      simp at declared
    rw [declared?_declare, if_neg notNew]
  simp only [entriesOf, placesIn_declare _ _ _ _ _ _ _ _ wellFormed.current_lt]
  split
  · rw [List.filterMap_append, List.filterMap_congr old]
    simp [declared?_declare]
  · exact List.filterMap_congr old

end Keyed

namespace Indexed

variable {builder next : Builder} {point : Point}

theorem empty : Indexed {} := by
  refine ⟨?_, ?_, ?_, ?_, ?_, ?_⟩
  · intro place found declared
    simp [declared?] at declared
  · rintro key scope place ⟨found, declared, _⟩
    simp [declared?] at declared
  · intro scope found known
    cases scope with
    | zero =>
        cases known
        rfl
    | succ scope => cases known
  · exact List.pairwise_singleton _ _
  · intro key place absent
    cases absent
  · intro key scope stop place ended named
    cases scope <;> cases named

theorem of_alike (indexed : builder.Indexed) (alike : Alike builder next)
    (closed : next.closed = builder.closed) : next.Indexed := by
  refine ⟨?_, ?_, ?_, ?_, ?_, ?_⟩
  · rw [alike.declarations]
    exact indexed.keyed
  · rw [alike.keyedIn, alike.names]
    exact indexed.latest
  · rw [alike.outlines, alike.entriesOf]
    exact indexed.entries
  · rw [alike.openScopes, alike.keyedIn]
    exact indexed.ordered
  · rw [closed, alike.ends, alike.names]
    exact indexed.closed
  · rw [closed, alike.ends, alike.names]
    exact indexed.remembered

variable (wellFormed : builder.WellFormed point)

include wellFormed

/-- A new name stands in the current scope, which has not ended. -/
theorem inScope?_declare_of_ended {scope : ScopeId} {stop : Point}
    (ended : builder.endOf? scope = some stop) (name : Name) (key : Key) (mutable copy : Flag)
    (deferred rebinds : Bool) (other : Key) :
    (builder.declare point name key mutable copy deferred rebinds).1.inScope? other scope =
      builder.inScope? other scope := by
  rw [inScope?_declare builder point name key mutable copy deferred rebinds wellFormed.current_lt]
  apply if_neg
  rintro ⟨rfl, _⟩
  rw [wellFormed.unended _ List.mem_cons_self] at ended
  cases ended

/-- A new place comes after all others and stands in the innermost scope. -/
theorem ordered_declare (indexed : builder.Indexed) (name : Name) (key : Key)
    (mutable copy : Flag) (deferred rebinds : Bool) :
    builder.openScopes.Pairwise fun inner outer =>
      ∀ first second firstKey secondKey,
        (builder.declare point name key mutable copy deferred rebinds).1.KeyedIn firstKey inner
          first →
        (builder.declare point name key mutable copy deferred rebinds).1.KeyedIn secondKey outer
          second → second < first := by
  have distinct := wellFormed.nodup
  have ordered := indexed.ordered
  rw [openScopes, List.nodup_cons] at distinct
  rw [openScopes, List.pairwise_cons] at ordered
  have outside : ∀ {other scope place}, scope ∈ builder.outer →
      (builder.declare point name key mutable copy deferred rebinds).1.KeyedIn other scope
        place → builder.KeyedIn other scope place := by
    intro other scope place isOuter known
    rcases keyedIn_declare point name mutable copy deferred rebinds |>.mp known with
      ⟨_, rfl, _⟩ | old
    · exact absurd isOuter distinct.1
    · exact old
  refine List.pairwise_cons.mpr ⟨?_, ?_⟩
  · intro outer isOuter first second firstKey secondKey inside around
    have older := outside isOuter around
    rcases keyedIn_declare point name mutable copy deferred rebinds |>.mp inside with
      ⟨rfl, _, _⟩ | old
    · exact older.lt_length
    · exact ordered.1 outer isOuter first second firstKey secondKey old older
  · refine ordered.2.imp_of_mem ?_
    intro inner outer isInner isOuter before first second firstKey secondKey inside around
    exact before first second firstKey secondKey (outside isInner inside) (outside isOuter around)

theorem declare (indexed : builder.Indexed) {name : Name} {key : Key}
    (keyed : name.key = .ok key) (mutable copy : Flag) (deferred rebinds : Bool) :
    (builder.declare point name key mutable copy deferred rebinds).1.Indexed := by
  have unchanged : ∀ {scope stop}, builder.endOf? scope = some stop → ∀ other, _ :=
    fun ended => inScope?_declare_of_ended wellFormed ended name key mutable copy deferred rebinds
  refine ⟨?_, ?_, ?_, ordered_declare wellFormed indexed name key mutable copy deferred rebinds,
    ?_, ?_⟩
  · intro place found declared
    rw [declared?_declare] at declared
    split at declared
    · cases declared
      exact keyed
    · exact indexed.keyed place found declared
  · intro other scope place known
    rw [inScope?_declare builder point name key mutable copy deferred rebinds
      wellFormed.current_lt]
    rcases keyedIn_declare point name mutable copy deferred rebinds |>.mp known with
      ⟨rfl, rfl, rfl⟩ | old
    · exact ⟨_, if_pos ⟨rfl, rfl⟩, Nat.le_refl _⟩
    · split
      · exact ⟨_, rfl, Nat.le_of_lt old.lt_length⟩
      · exact indexed.latest other scope place old
  · intro scope found known
    rw [outline?_declare] at known
    rw [entriesOf_declare wellFormed]
    obtain ⟨before, outlined, rfl⟩ := Option.map_eq_some_iff.mp known
    have entered := indexed.entries scope before outlined
    split
    · rw [List.reverse_append, ← entered]
      rfl
    · exact entered
  · intro other place found
    obtain ⟨scope, stop, ended, named, last⟩ := indexed.closed other place found
    refine ⟨scope, stop, ?_, (unchanged ended other).trans named, ?_⟩
    · rw [endOf?_declare]
      exact ended
    · intro scope' stop' place' ended' named'
      rw [endOf?_declare] at ended'
      rw [unchanged ended'] at named'
      exact last scope' stop' place' ended' named'
  · intro other scope stop place ended named
    rw [endOf?_declare] at ended
    rw [unchanged ended] at named
    exact indexed.remembered other scope stop place ended named

theorem enter (indexed : builder.Indexed) (loc : Span) : (builder.enter point loc).Indexed := by
  have declarations : (builder.enter point loc).declared? = builder.declared? := rfl
  have keyedIn : (builder.enter point loc).KeyedIn = builder.KeyedIn := by
    funext key scope place
    simp only [KeyedIn, declarations]
  refine ⟨?_, ?_, ?_, ?_, ?_, ?_⟩
  · exact indexed.keyed
  · rw [keyedIn, inScope?_enter]
    exact indexed.latest
  · intro scope found known
    simp only [entriesOf, placesIn_enter, declarations]
    rw [outline?_enter] at known
    split at known
    · next last =>
        cases known
        simp [last, placesIn, outline?_length]
    · exact indexed.entries scope found known
  · rw [openScopes_enter, keyedIn]
    refine List.pairwise_cons.mpr ⟨?_, indexed.ordered⟩
    rintro outer _ first second key other ⟨found, declared, inNew, _⟩
    -- Nothing has been declared in the new scope.
    have listed := (wellFormed.listed _ first).mpr ⟨found, declared, inNew⟩
    simp [placesIn, outline?_length] at listed
  · rw [endOf?_enter, inScope?_enter]
    exact indexed.closed
  · rw [endOf?_enter, inScope?_enter]
    exact indexed.remembered

omit wellFormed in
theorem closed_exit {loc : Span} (left : builder.exit point loc = .ok next) :
    next.closed = (builder.endedNames builder.current).reverse ++ builder.closed := by
  cases around : builder.outer with
  | nil => simp [Builder.exit, around] at left
  | cons parent outer =>
      simp only [Builder.exit, around, Except.ok.injEq] at left
      subst left
      rfl

omit wellFormed in
theorem endedNames_eq (builder : Builder) (scope : ScopeId) :
    builder.endedNames scope = builder.entriesOf scope := by
  simp only [endedNames, entriesOf, placesIn, outline?, declared?]
  cases builder.scopes[scope]? with
  | none => rfl
  | some found =>
      simp only [Option.map_some, Option.elim_some, Option.map_map]
      rfl

/-- Leaving a scope puts its names before those of the scopes that ended earlier. -/
theorem lookup_closed_exit (indexed : builder.Indexed) {loc : Span}
    (left : builder.exit point loc = .ok next) (key : Key) :
    next.closed.lookup key =
      (builder.inScope? key builder.current).or (builder.closed.lookup key) := by
  have inside := wellFormed.current_lt
  obtain ⟨found, known⟩ : ∃ found, builder.outline? builder.current = some found :=
    ⟨_, congrArg (Option.map Scope.outline) (List.getElem?_eq_getElem inside)⟩
  rw [closed_exit left, endedNames_eq, ← indexed.entries _ found known, inScope?_eq, known]
  exact List.lookup_append

/-- The scope that is left ends after all others. -/
theorem last_exit (indexed : builder.Indexed) {loc : Span}
    (left : builder.exit point loc = .ok next) {key : Key} {place : PlaceId}
    (found : next.closed.lookup key = some place) :
    ∃ scope stop, next.endOf? scope = some stop ∧ builder.inScope? key scope = some place ∧
      ∀ other end_ later, next.endOf? other = some end_ →
        builder.inScope? key other = some later → end_ ≤ stop := by
  have ends := endOf?_exit left wellFormed.current_lt
  rw [lookup_closed_exit wellFormed indexed left] at found
  cases named : builder.inScope? key builder.current with
  | some last =>
      rw [named] at found
      cases found
      refine ⟨builder.current, point, (ends _).trans (if_pos rfl), named, ?_⟩
      intro other stop place ended _
      rw [ends] at ended
      split at ended
      · cases ended
        exact Nat.le_refl point
      · exact Nat.le_of_lt (wellFormed.lt_of_endOf? ended)
  | none =>
      rw [named] at found
      have elsewhere : ∀ {scope found}, builder.inScope? key scope = some found →
          scope ≠ builder.current := by
        rintro scope found known rfl
        rw [named] at known
        cases known
      obtain ⟨scope, stop, ended, known, last⟩ := indexed.closed key place found
      refine ⟨scope, stop, ?_, known, ?_⟩
      · rw [ends, if_neg (elsewhere known)]
        exact ended
      · intro other otherStop otherPlace ended known
        rw [ends, if_neg (elsewhere known)] at ended
        exact last other otherStop otherPlace ended known

theorem exit (indexed : builder.Indexed) {loc : Span}
    (left : builder.exit point loc = .ok next) : next.Indexed := by
  have names := names_exit left
  have keyedIn : next.KeyedIn = builder.KeyedIn := by
    funext key scope place
    simp only [KeyedIn, declared?_exit left]
  refine ⟨?_, ?_, ?_, ?_, ?_, ?_⟩
  · rw [declared?_exit left]
    exact indexed.keyed
  · rw [keyedIn, names]
    exact indexed.latest
  · intro scope found known
    simp only [entriesOf, placesIn_exit left, declared?_exit left]
    rw [(exit_cases left).2.1] at known
    obtain ⟨before, outlined, rfl⟩ := Option.map_eq_some_iff.mp known
    have entered := indexed.entries scope before outlined
    split
    · exact entered
    · exact entered
  · rw [keyedIn]
    have ordered := indexed.ordered
    rw [(exit_cases left).1] at ordered
    exact (List.pairwise_cons.mp ordered).2
  · intro key place found
    rw [names]
    exact last_exit wellFormed indexed left found
  · intro key scope stop place ended named
    rw [endOf?_exit left wellFormed.current_lt] at ended
    rw [names] at named
    rw [lookup_closed_exit wellFormed indexed left]
    split at ended
    · next same =>
        subst same
        exact ⟨place, by rw [named]; rfl⟩
    · obtain ⟨last, found⟩ := indexed.remembered key scope stop place ended named
      cases builder.inScope? key builder.current with
      | none => exact ⟨last, found⟩
      | some inner => exact ⟨inner, rfl⟩

theorem step (indexed : builder.Indexed) {statement : Statement}
    (names : Names builder point statement next) : next.Indexed := by
  cases names with
  | inside extended closed =>
      cases extended with
      | kept alike => exact indexed.of_alike alike closed
      | declared name key mutable deferred keyed alike =>
          exact (indexed.declare wellFormed keyed mutable _ deferred false).of_alike alike closed
  | entered => exact indexed.enter wellFormed statement.loc
  | left exits => exact indexed.exit wellFormed exits

/-- Going outwards, the first scope with a name has the place of that name declared last. -/
theorem findSome?_inScope? (indexed : builder.Indexed) {key : Key} {place : PlaceId}
    {scopes : List ScopeId}
    (ordered : scopes.Pairwise fun inner outer =>
      ∀ first second key other, builder.KeyedIn key inner first →
        builder.KeyedIn other outer second → second < first)
    (found : scopes.findSome? (builder.inScope? key) = some place) :
    (∃ scope ∈ scopes, builder.KeyedIn key scope place) ∧
      ∀ scope ∈ scopes, ∀ other, builder.KeyedIn key scope other → other ≤ place := by
  induction scopes with
  | nil => cases found
  | cons inner outer inductionHypothesis =>
      obtain ⟨innermost, ordered⟩ := List.pairwise_cons.mp ordered
      rw [List.findSome?_cons] at found
      cases named : builder.inScope? key inner with
      | some last =>
          rw [named] at found
          cases found
          have keyed := wellFormed.keyedIn_of_inScope? named
          refine ⟨⟨inner, List.mem_cons_self, keyed⟩, ?_⟩
          intro scope isOpen other known
          rcases List.mem_cons.mp isOpen with rfl | isOuter
          · obtain ⟨greatest, same, below⟩ := indexed.latest key scope other known
            rw [named, Option.some.injEq] at same
            exact same ▸ below
          · exact Nat.le_of_lt (innermost scope isOuter place other key key keyed known)
      | none =>
          rw [named] at found
          obtain ⟨⟨scope, isOuter, keyed⟩, greatest⟩ := inductionHypothesis ordered found
          refine ⟨⟨scope, List.mem_cons_of_mem inner isOuter, keyed⟩, ?_⟩
          intro scope isOpen other known
          rcases List.mem_cons.mp isOpen with rfl | isOuter
          · obtain ⟨last, alsoNamed, _⟩ := indexed.latest key scope other known
            rw [named] at alsoNamed
            cases alsoNamed
          · exact greatest scope isOuter other known

theorem visible?_eq_some (indexed : builder.Indexed) {key : Key} {place : PlaceId}
    (found : builder.visible? key = some place) :
    IsGreatest {other | ∃ scope ∈ builder.openScopes, builder.KeyedIn key scope other} place := by
  obtain ⟨keyed, greatest⟩ := findSome?_inScope? wellFormed indexed indexed.ordered found
  refine ⟨keyed, ?_⟩
  rintro other ⟨scope, isOpen, known⟩
  exact greatest scope isOpen other known

omit wellFormed in
theorem not_keyedIn_of_visible? (indexed : builder.Indexed) {key : Key}
    (hidden : builder.visible? key = none) {scope : ScopeId} (isOpen : scope ∈ builder.openScopes)
    (place : PlaceId) : ¬builder.KeyedIn key scope place := by
  intro known
  obtain ⟨last, named, _⟩ := indexed.latest key scope place known
  rw [List.findSome?_eq_none_iff.mp hidden scope isOpen] at named
  cases named

/-- Among ended scopes the one that ended last counts, and in it the last declaration. -/
theorem closed_lookup_eq_some (indexed : builder.Indexed) {key : Key} {place : PlaceId}
    (found : builder.closed.lookup key = some place) :
    ∃ scope stop, builder.endOf? scope = some stop ∧
      IsGreatest {ending | ∃ other earlier, builder.endOf? other = some ending ∧
        builder.KeyedIn key other earlier} stop ∧
      IsGreatest {other | builder.KeyedIn key scope other} place := by
  obtain ⟨scope, stop, ended, named, last⟩ := indexed.closed key place found
  have keyed := wellFormed.keyedIn_of_inScope? named
  refine ⟨scope, stop, ended, ⟨⟨scope, place, ended, keyed⟩, ?_⟩, keyed, ?_⟩
  · rintro ending ⟨other, earlier, alsoEnded, known⟩
    obtain ⟨latest, alsoNamed, _⟩ := indexed.latest key other earlier known
    exact last other ending latest alsoEnded alsoNamed
  · intro other known
    obtain ⟨latest, same, below⟩ := indexed.latest key scope other known
    rw [named, Option.some.injEq] at same
    exact same ▸ below

omit wellFormed in
theorem not_keyedIn_of_closed (indexed : builder.Indexed) {key : Key}
    (absent : builder.closed.lookup key = none) {scope : ScopeId} {stop : Point}
    (ended : builder.endOf? scope = some stop) (place : PlaceId) :
    ¬builder.KeyedIn key scope place := by
  intro known
  obtain ⟨last, named, _⟩ := indexed.latest key scope place known
  obtain ⟨remembered, found⟩ := indexed.remembered key scope stop last ended named
  rw [absent] at found
  cases found

end Indexed

/-- A scope in which something was declared is open or has ended. -/
theorem WellFormed.open_or_ended {builder : Builder} {point : Point}
    (wellFormed : builder.WellFormed point) {key : Key} {scope : ScopeId} {place : PlaceId}
    (keyed : builder.KeyedIn key scope place) :
    scope ∈ builder.openScopes ∨ ∃ stop, builder.endOf? scope = some stop := by
  obtain ⟨found, declared, inScope, _⟩ := keyed
  have listed := (wellFormed.listed scope place).mpr ⟨found, declared, inScope⟩
  have inside : scope < builder.scopes.length := by
    apply Nat.lt_of_not_le
    intro outside
    simp [placesIn, outline?, List.getElem?_eq_none outside] at listed
  by_cases isOpen : scope ∈ builder.openScopes
  · exact .inl isOpen
  · obtain ⟨stop, ended, _⟩ := wellFormed.ended scope inside isOpen
    exact .inr ⟨stop, ended⟩

/-- An escaped operand was declared, and cannot be named any more. -/
theorem Indexed.use_escaped {builder : Builder} {point : Point}
    (wellFormed : builder.WellFormed point) (indexed : builder.Indexed) {loc : Span} {name : Name}
    {use : Use} (used : builder.use point loc name = .ok use) (escaped : use.escaped = true) :
    (∃ found, builder.declared? use.place = some found) ∧ ¬builder.Live use.place := by
  simp only [Builder.use, bind_eq_ok_iff] at used
  obtain ⟨key, _, chosen⟩ := used
  split at chosen
  · cases chosen
    cases escaped
  · split at chosen
    · next place found =>
        split at chosen
        · cases chosen
          obtain ⟨scope, stop, ended, named, _⟩ := indexed.closed key place found
          obtain ⟨entry, known, inScope, _⟩ := wellFormed.named key scope place named
          refine ⟨⟨entry, known⟩, ?_⟩
          intro live
          obtain ⟨other, alsoKnown, isOpen, _⟩ := wellFormed.declared_of_live live
          cases known.symm.trans alsoKnown
          rw [inScope] at isOpen
          rw [wellFormed.unended scope isOpen] at ended
          cases ended
        · cases chosen
    · cases chosen

/-- A place that is declared after a statement was so before it, or is the next one and stands
in a scope that is open, with the point and the copy flag of the statement. -/
theorem Names.declared_cases {before after : Builder} {point : Point} {statement : Statement}
    (names : Names before point statement after) {place : PlaceId} {found : Place}
    (known : after.declared? place = some found) :
    before.declared? place = some found ∨
      (place = before.places.length ∧ found.point = point ∧
        found.copy = statement.action.copyFlag ∧ found.scope ∈ after.openScopes) := by
  cases names with
  | inside extended closed =>
      cases extended with
      | kept alike =>
          rw [alike.declarations] at known
          exact .inl known
      | declared name key mutable deferred keyed alike =>
          rw [alike.declarations, declared?_declare] at known
          split at known
          · next isNew =>
              cases known
              refine .inr ⟨isNew, rfl, rfl, ?_⟩
              rw [alike.openScopes]
              exact List.mem_cons_self
          · exact .inl known
  | entered => exact .inl known
  | left exits =>
      rw [declared?_exit exits] at known
      exact .inl known

end Builder

namespace CodeUnit

variable {unit : CodeUnit} {tree : ScopeTree} {point : Point}

theorem indexed_builderAt {builder : Builder} (inside : point ≤ unit.statements.length)
    (reached : unit.builderAt point = .ok builder) : builder.Indexed := by
  apply builderAt_induction (fun _ builder => builder.Indexed) .empty _ inside reached
  intro point statement before after listed earlier stepped indexed
  have before_end := Nat.le_of_lt (List.getElem?_eq_some_iff.mp listed).1
  exact indexed.step (wellFormed_builderAt before_end earlier) (Builder.step_resolves stepped).1

namespace Passage

variable {statement : Statement} {before after : Builder} {resolution : Resolution}
  {rest : List Resolution}
  (passage : Passage unit tree point statement before resolution after rest)

include passage

theorem escaped_source {use : Use} (source : resolution.effect.source? = some use)
    (escaped : use.escaped = true) :
    (∃ found, before.declared? use.place = some found) ∧ ¬before.Live use.place := by
  have inside := Nat.le_of_lt (List.getElem?_eq_some_iff.mp passage.listed).1
  have indexed := indexed_builderAt inside passage.reached
  have looked := passage.resolves.operand
  rw [source] at looked
  cases operand : statement.action.operand? with
  | none =>
      rw [operand] at looked
      cases looked
  | some name =>
      rw [operand, Option.mapM_some, map_eq_ok_iff] at looked
      obtain ⟨found, used, same⟩ := looked
      cases same
      exact indexed.use_escaped passage.crossing.leads_before.wellFormed used escaped

theorem declared_source {use : Use} (source : resolution.effect.source? = some use) :
    ∃ found, before.declared? use.place = some found := by
  cases escaped : use.escaped with
  | true => exact (passage.escaped_source source escaped).1
  | false =>
      have live := passage.crossing.transition.source_live use source escaped
      obtain ⟨found, known, _⟩ := passage.crossing.leads_before.wellFormed.declared_of_live live
      exact ⟨found, known⟩

end Passage

end CodeUnit

end LoanCheck
