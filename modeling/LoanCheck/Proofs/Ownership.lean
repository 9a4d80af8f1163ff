import LoanCheck.Ownership

/-!
# Ownership after each change

Every change of ownership is about one place: the record of that place is given
exactly, and the records of all other places stay.  `Ownership.after` puts the changes of
a statement together; it depends on nothing but the ownership before.
-/

namespace LoanCheck

/-- The operand whose value a statement takes. -/
def Effect.takes? : Effect → Option Use
  | .bind _ source _ _ => source
  | .move _ source => some source
  | .consume source => some source
  | _ => none

theorem Effect.source?_of_takes? {effect : Effect} {source : Use}
    (takes : effect.takes? = some source) : effect.source? = some source := by
  cases effect with
  | bind target operand mutable copy => exact takes
  | move target operand => exact takes
  | consume operand => exact takes
  | _ => cases takes

namespace Ownership

variable (ownership : Ownership) (tree : ScopeTree) (place other : PlaceId)

theorem record_set (record : OwnershipRecord) :
    Ownership.record (Table.set ownership place record) tree other =
      if other = place then record else ownership.record tree other := by
  by_cases same : other = place
  · simp [Ownership.record, same]
  · simp [Ownership.record, same]

@[simp]
theorem record_declare :
    (ownership.declare tree place).record tree other =
      if other = place then tree.freshRecord place else ownership.record tree other :=
  record_set ownership tree place other _

@[simp]
theorem record_setState (state : OwnershipState) :
    (ownership.setState tree place state).record tree other =
      if other = place then { ownership.record tree place with state }
      else ownership.record tree other :=
  record_set ownership tree place other _

@[simp]
theorem record_fill :
    (ownership.fill tree place).record tree other =
      if other = place then { ownership.record tree place with state := .owned }
      else ownership.record tree other :=
  record_setState ownership tree place other .owned

@[simp]
theorem record_drop :
    (ownership.drop tree place).record tree other =
      if other = place then { ownership.record tree place with state := .dropped }
      else ownership.record tree other :=
  record_setState ownership tree place other .dropped

@[simp]
theorem record_rebind (mutable copy : Flag) :
    (ownership.rebind place mutable copy).record tree other =
      if other = place then ⟨.owned, mutable, copy⟩ else ownership.record tree other :=
  record_set ownership tree place other _

/-- A value that may be copied is not moved out of its place. -/
@[simp]
theorem record_moveOut :
    (ownership.moveOut tree place).record tree other =
      if other = place ∧
          ¬((ownership.record tree place).copy.isTrue = true ∧
            (ownership.record tree place).state = .owned) then
        { ownership.record tree place with state := .movedOut }
      else ownership.record tree other := by
  by_cases kept : (ownership.record tree place).copy.isTrue = true ∧
      (ownership.record tree place).state = .owned
  · simp [moveOut, kept]
  · have moves : ¬((ownership.record tree place).copy.isTrue &&
        (ownership.record tree place).state == .owned) = true := by
      simpa using kept
    simp only [moveOut, if_neg moves, record_setState, kept, not_false_eq_true, and_true]

section After

variable (tree : ScopeTree)

/-- The value of an operand is moved out, unless the operand has escaped. -/
def taken (source : Use) (ownership : Ownership) : Ownership :=
  if source.escaped then ownership else ownership.moveOut tree source.place

theorem taken_of_escaped {source : Use} (escaped : source.escaped = true) :
    taken tree source = id := by
  funext ownership
  simp [taken, escaped]

theorem taken_of_inside {source : Use} (inside : source.escaped = false) :
    taken tree source = fun ownership => ownership.moveOut tree source.place := by
  funext ownership
  simp [taken, inside]

/-- A new place is declared, and what it shadows is dropped. -/
def declareOver (place : PlaceId) (shadowed : Option PlaceId) (ownership : Ownership) : Ownership :=
  (shadowed.elim ownership (ownership.drop tree)).declare tree place

def makeRoom (target : Target) (ownership : Ownership) : Ownership :=
  match target with
  | .existing _ => ownership
  | .fresh place shadowed _ => ownership.declareOver tree place shadowed

/-- The places of a scope that are still there when it ends. -/
def remaining (scope : ScopeId) (ownership : Ownership) : List PlaceId :=
  (tree.placesOf scope).filter fun place => ownership.stateOf tree place != .dropped

def leave (scope : ScopeId) (ownership : Ownership) : Ownership :=
  (ownership.remaining tree scope).reverse.foldl (fun later place => later.drop tree place)
    ownership

/-- Ownership after a statement.  It does not depend on borrows. -/
def after (effect : Effect) (ownership : Ownership) : Ownership :=
  match effect with
  | .enter => ownership
  | .exit scope => ownership.leave tree scope
  | .bind target source mutable copy =>
      ((source.elim ownership (ownership.taken tree)).makeRoom tree target).rebind target.place
        mutable copy
  | .declare target => ownership.declareOver tree target.place target.shadowed?
  | .move target source =>
      ((ownership.taken tree source).makeRoom tree target).fill tree target.place
  | .borrow _ target _ => (ownership.makeRoom tree target).fill tree target.place
  | .write _ => ownership
  | .read _ => ownership
  | .consume source => ownership.taken tree source

theorem record_foldl_drop (places : List PlaceId) (ownership : Ownership) (place : PlaceId) :
    Ownership.record (places.foldl (fun later place => later.drop tree place) ownership) tree
        place =
      if place ∈ places then { ownership.record tree place with state := .dropped }
      else ownership.record tree place := by
  induction places generalizing ownership with
  | nil => simp
  | cons first rest inductionHypothesis =>
      rw [List.foldl_cons, inductionHypothesis, record_drop]
      by_cases same : place = first
      · simp [same]
      · simp [same]

theorem stateOf_leave (scope : ScopeId) (ownership : Ownership) (place : PlaceId) :
    (ownership.leave tree scope).stateOf tree place =
      if place ∈ tree.placesOf scope then .dropped else ownership.stateOf tree place := by
  simp only [leave, stateOf, record_foldl_drop, List.mem_reverse, remaining, List.mem_filter]
  by_cases listed : place ∈ tree.placesOf scope
  · by_cases gone : (ownership.record tree place).state = .dropped
    · simp [listed, gone]
    · simp [listed, gone]
  · simp [listed]

/-- A value that is taken is moved out, unless it is copied. -/
theorem stateOf_taken_cases (source : Use) (ownership : Ownership) (place : PlaceId) :
    (ownership.taken tree source).stateOf tree place = ownership.stateOf tree place ∨
      ((ownership.taken tree source).stateOf tree place = .movedOut ∧ source.place = place ∧
        source.escaped = false ∧
        ¬((ownership.record tree place).copy.isTrue = true ∧
          ownership.stateOf tree place = .owned)) := by
  cases escaped : source.escaped with
  | true =>
      rw [taken_of_escaped tree escaped]
      exact .inl rfl
  | false =>
      rw [taken_of_inside tree escaped]
      simp only [stateOf, record_moveOut]
      split
      · next moves =>
          obtain ⟨rfl, notCopied⟩ := moves
          exact .inr ⟨rfl, rfl, trivial, notCopied⟩
      · exact .inl rfl

theorem freshRecord_state (place : PlaceId) :
    (tree.freshRecord place).state = .uninitialized := by
  unfold ScopeTree.freshRecord
  split <;> rfl

theorem stateOf_declareOver (fresh : PlaceId) (shadowed : Option PlaceId) (ownership : Ownership)
    (place : PlaceId) :
    (ownership.declareOver tree fresh shadowed).stateOf tree place =
      if place = fresh then .uninitialized
      else if shadowed = some place then .dropped
      else ownership.stateOf tree place := by
  simp only [declareOver, stateOf, record_declare]
  by_cases new : place = fresh
  · simp [new, freshRecord_state]
  · cases shadowed with
    | none => simp [new]
    | some old =>
        by_cases same : place = old
        · subst same
          simp [new]
        · simp [new, same, Ne.symm same]

theorem stateOf_makeRoom (target : Target) (ownership : Ownership) (place : PlaceId)
    (other : place ≠ target.place) :
    (ownership.makeRoom tree target).stateOf tree place =
      if target.shadowed? = some place then .dropped else ownership.stateOf tree place := by
  cases target with
  | existing kept => simp [makeRoom, Target.shadowed?]
  | fresh new shadowed rebinds =>
      have notNew : place ≠ new := other
      rw [makeRoom, stateOf_declareOver, if_neg notNew]
      rfl

theorem stateOf_fill (filled : PlaceId) (ownership : Ownership) (place : PlaceId) :
    (ownership.fill tree filled).stateOf tree place =
      if place = filled then .owned else ownership.stateOf tree place := by
  simp only [stateOf, record_fill]
  split <;> rfl

theorem stateOf_rebind (bound : PlaceId) (mutable copy : Flag) (ownership : Ownership)
    (place : PlaceId) :
    (ownership.rebind bound mutable copy).stateOf tree place =
      if place = bound then .owned else ownership.stateOf tree place := by
  simp only [stateOf, record_rebind]
  split <;> rfl

/-- What a statement can do to the state of a place, with the state it leaves. -/
inductive Changed (effect : Effect) (ownership : Ownership) (place : PlaceId) :
    OwnershipState → Prop where
  | given {target : Target} (gives : effect.target? = some target) (same : target.place = place) :
      Changed effect ownership place .owned
  | declared {target : Target} (declares : effect = .declare target)
      (same : target.place = place) : Changed effect ownership place .uninitialized
  | hidden {target : Target} (gives : effect.target? = some target)
      (shadowed : target.shadowed? = some place) : Changed effect ownership place .dropped
  | closed {scope : ScopeId} (closes : effect.closes? = some scope)
      (listed : place ∈ tree.placesOf scope) : Changed effect ownership place .dropped
  | taken {source : Use} (takes : effect.takes? = some source) (same : source.place = place)
      (inside : source.escaped = false)
      (moves : ¬((ownership.record tree place).copy.isTrue = true ∧
        ownership.stateOf tree place = .owned)) : Changed effect ownership place .movedOut
  | kept (other : ∀ target, effect.target? = some target → target.place ≠ place) :
      Changed effect ownership place (ownership.stateOf tree place)

/-- Making room at a target drops what it shadows and nothing else. -/
theorem Changed.makeRoom {effect : Effect} {ownership prior : Ownership} {place : PlaceId}
    {target : Target} (gives : effect.target? = some target) (other : place ≠ target.place)
    (before : Changed tree effect ownership place (prior.stateOf tree place)) :
    Changed tree effect ownership place
      ((prior.makeRoom tree target).stateOf tree place) := by
  rw [stateOf_makeRoom tree target prior place other]
  split
  · next shadowed => exact .hidden gives shadowed
  · exact before

theorem Changed.taken_of_takes {effect : Effect} {source : Use} {ownership : Ownership}
    {place : PlaceId} (takes : effect.takes? = some source)
    (other : ∀ target, effect.target? = some target → target.place ≠ place) :
    Changed tree effect ownership place ((ownership.taken tree source).stateOf tree place) := by
  rcases stateOf_taken_cases tree source ownership place with same | ⟨moved, isPlace, inside, moves⟩
  · rw [same]
    exact .kept other
  · rw [moved]
    exact .taken takes isPlace inside moves

/-- The state that a statement leaves a place in comes about in one of these ways. -/
theorem changed_after (effect : Effect) (ownership : Ownership) (place : PlaceId) :
    Changed tree effect ownership place
      ((ownership.after tree effect).stateOf tree place) := by
  have only : ∀ {target : Target}, effect.target? = some target → place ≠ target.place →
      ∀ other, effect.target? = some other → other.place ≠ place := by
    intro target gives different other givesOther same
    rw [gives, Option.some.injEq] at givesOther
    subst givesOther
    exact different same.symm
  cases effect with
  | enter => exact .kept (by simp [Effect.target?])
  | exit scope =>
      rw [after, stateOf_leave]
      split
      · next listed => exact .closed rfl listed
      · exact .kept (by simp [Effect.target?])
  | bind target source mutable copy =>
      rw [after, stateOf_rebind]
      split
      · next same => exact .given rfl same.symm
      · next different =>
          apply Changed.makeRoom tree rfl different
          cases source with
          | none => exact .kept (only rfl different)
          | some source => exact .taken_of_takes tree rfl (only rfl different)
  | declare target =>
      rw [after, stateOf_declareOver]
      split
      · next same => exact .declared rfl same.symm
      · next different =>
          split
          · next shadowed => exact .hidden rfl shadowed
          · exact .kept (only rfl different)
  | move target source =>
      rw [after, stateOf_fill]
      split
      · next same => exact .given rfl same.symm
      · next different =>
          exact .makeRoom tree rfl different (.taken_of_takes tree rfl (only rfl different))
  | borrow kind target source =>
      rw [after, stateOf_fill]
      split
      · next same => exact .given rfl same.symm
      · next different => exact .makeRoom tree rfl different (.kept (only rfl different))
  | write source => exact .kept (by simp [Effect.target?])
  | read source => exact .kept (by simp [Effect.target?])
  | consume source => exact .taken_of_takes tree rfl (by simp [Effect.target?])

/-- A place that is not shadowed and whose scope goes on is not dropped. -/
theorem stateOf_after_ne_dropped {effect : Effect} {ownership : Ownership} {place : PlaceId}
    (there : ownership.stateOf tree place ≠ .dropped ∨
      ∃ target, effect.target? = some target ∧ target.place = place)
    (notShadowed : ∀ target, effect.target? = some target → target.shadowed? ≠ some place)
    (notClosed : ∀ scope, effect.closes? = some scope → place ∉ tree.placesOf scope) :
    (ownership.after tree effect).stateOf tree place ≠ .dropped := by
  have changed := changed_after tree effect ownership place
  generalize (ownership.after tree effect).stateOf tree place = later at changed
  cases changed with
  | given gives same => simp
  | declared declares same => simp
  | hidden gives shadowed => exact absurd shadowed (notShadowed _ gives)
  | closed closes listed => exact absurd listed (notClosed _ closes)
  | taken takes same inside moves => simp
  | kept other =>
      rcases there with there | ⟨target, gives, same⟩
      · exact there
      · exact absurd same (other target gives)

theorem stateOf_after_hidden {effect : Effect} {ownership : Ownership} {place : PlaceId}
    {target : Target} (given : effect.target? = some target)
    (shadowed : target.shadowed? = some place) (other : place ≠ target.place) :
    (ownership.after tree effect).stateOf tree place = .dropped := by
  cases effect with
  | bind goal source mutable copy =>
      cases given
      rw [after, stateOf_rebind, if_neg other, stateOf_makeRoom tree _ _ _ other, if_pos shadowed]
  | declare goal =>
      cases given
      rw [after, stateOf_declareOver, if_neg other, if_pos shadowed]
  | move goal source =>
      cases given
      rw [after, stateOf_fill, if_neg other, stateOf_makeRoom tree _ _ _ other, if_pos shadowed]
  | borrow kind goal source =>
      cases given
      rw [after, stateOf_fill, if_neg other, stateOf_makeRoom tree _ _ _ other, if_pos shadowed]
  | _ => cases given

theorem stateOf_after_closed {effect : Effect} {ownership : Ownership} {place : PlaceId}
    {scope : ScopeId} (closes : effect.closes? = some scope)
    (listed : place ∈ tree.placesOf scope) :
    (ownership.after tree effect).stateOf tree place = .dropped := by
  cases effect with
  | exit closing =>
      cases closes
      rw [after, stateOf_leave, if_pos listed]
  | _ => cases closes

/-- A value that is not taken, or only copied, stays where it is. -/
theorem stateOf_taken_of_copied {source : Use} {ownership : Ownership} {place : PlaceId}
    (copied : source.place = place → source.escaped = false →
      (ownership.record tree place).copy.isTrue = true ∧ ownership.stateOf tree place = .owned) :
    (ownership.taken tree source).stateOf tree place = ownership.stateOf tree place := by
  rcases stateOf_taken_cases tree source ownership place with same | ⟨_, isPlace, inside, moved⟩
  · exact same
  · exact absurd (copied isPlace inside) moved

theorem stateOf_taken_eq_owned_iff {source : Use} (inside : source.escaped = false)
    (ownership : Ownership) :
    (ownership.taken tree source).stateOf tree source.place = .owned ↔
      (ownership.record tree source.place).copy.isTrue = true ∧
        ownership.stateOf tree source.place = .owned := by
  rw [taken_of_inside tree inside]
  simp only [stateOf, record_moveOut, true_and]
  split
  · next moves => simp [moves]
  · next stays =>
      rw [Decidable.not_not] at stays
      simp [stays]

/-- A place that has its value or was dropped stays so, unless its value is taken or it is
declared anew. -/
theorem stateOf_after_of_kept {effect : Effect} {ownership : Ownership} {place : PlaceId}
    (kept : ownership.stateOf tree place = .owned ∨ ownership.stateOf tree place = .dropped)
    (copied : ∀ source, effect.takes? = some source → source.place = place →
      source.escaped = false →
      (ownership.record tree place).copy.isTrue = true ∧ ownership.stateOf tree place = .owned)
    (old : ∀ target, effect = .declare target → target.place ≠ place) :
    (ownership.after tree effect).stateOf tree place = .owned ∨
      (ownership.after tree effect).stateOf tree place = .dropped := by
  have changed := changed_after tree effect ownership place
  generalize (ownership.after tree effect).stateOf tree place = later at changed
  cases changed with
  | given gives same => exact .inl rfl
  | declared declares same => exact absurd same (old _ declares)
  | hidden gives shadowed => exact .inr rfl
  | closed closes listed => exact .inr rfl
  | taken takes same inside moves => exact absurd (copied _ takes same inside) moves
  | kept other => exact kept

end After

end Ownership

end LoanCheck
