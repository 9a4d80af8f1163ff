import LoanCheck.Proofs.Scope.Shift

/-!
# The scopes of two units in a row

The statements of a unit that has a scope tree mention only names of its places.  So, where
two units have no name in common, the second one meets none of the names of the first, and the
scope tree of both in a row is made of their own two trees.
-/

namespace LoanCheck

namespace Builder

/-- A place was declared under a name with the key of the given one. -/
def Knows (builder : Builder) (name : Name) : Prop :=
  ∃ place found, builder.declared? place = some found ∧ name.key = .ok found.key

section Knows

variable {before after : Builder} {point : Point} {loc : Span} {name : Name}

theorem Knows.of_alike (alike : Alike before after) (knows : before.Knows name) :
    after.Knows name := by
  obtain ⟨place, found, known, keyed⟩ := knows
  exact ⟨place, found, alike.declarations.symm ▸ known, keyed⟩

theorem knows_declare {key : Key} (keyed : name.key = .ok key) (mutable copy : Flag)
    (deferred rebinds : Bool) :
    (before.declare point name key mutable copy deferred rebinds).1.Knows name := by
  have known := declared?_declare before point name key mutable copy deferred rebinds
    before.places.length
  rw [if_pos rfl] at known
  exact ⟨_, _, known, keyed⟩

variable (regular : before.Regular point)

include regular

theorem Regular.knows_of_inScope? {key : Key} {scope : ScopeId} {place : PlaceId}
    (keyed : name.key = .ok key) (named : before.inScope? key scope = some place) :
    before.Knows name := by
  obtain ⟨found, known, _, rfl⟩ := regular.wellFormed.named key scope place named
  exact ⟨place, found, known, keyed⟩

theorem Regular.knows_of_visible? {key : Key} {place : PlaceId} (keyed : name.key = .ok key)
    (visible : before.visible? key = some place) : before.Knows name := by
  obtain ⟨scope, _, named⟩ := List.exists_of_findSome?_eq_some visible
  exact regular.knows_of_inScope? keyed named

theorem Regular.knows_of_use {use : Use} (used : before.use point loc name = .ok use) :
    before.Knows name := by
  rw [Builder.use, bind_eq_ok_iff] at used
  obtain ⟨key, keyed, chosen⟩ := used
  have named := keyOf_eq_ok keyed
  split at chosen
  · next place visible => exact regular.knows_of_visible? named visible
  · split at chosen
    · next place ended =>
        obtain ⟨scope, _, _, inScope, _⟩ := regular.indexed.closed key place ended
        exact regular.knows_of_inScope? named inScope
    · cases chosen

theorem Regular.knows_of_assign {target : Target}
    (assigned : before.assign point name = .ok (after, target)) : after.Knows name := by
  rw [Builder.assign, bind_eq_ok_iff] at assigned
  obtain ⟨key, keyed, chosen⟩ := assigned
  have named := keyOf_eq_ok keyed
  split at chosen
  · next place visible =>
      split at chosen
      · cases chosen
        exact regular.knows_of_visible? named visible
      · cases chosen
        exact knows_declare named (.bool false) (.bool false) false false
  · cases chosen
    exact knows_declare named (.bool false) (.bool false) false false

theorem Regular.knows_of_bindTarget {mutable shadow copy : Flag} {holding : Option Holding}
    {target : Target}
    (bound : before.bindTarget point name mutable shadow copy holding = .ok (after, target)) :
    after.Knows name := by
  rw [Builder.bindTarget, bind_eq_ok_iff] at bound
  obtain ⟨key, keyed, chosen⟩ := bound
  have named := keyOf_eq_ok keyed
  split at chosen
  · next place inScope =>
      split at chosen
      · cases chosen
        exact regular.knows_of_inScope? named inScope
      · cases chosen
        exact knows_declare named mutable copy false (!shadow.isTrue)
  · cases chosen
    exact knows_declare named mutable copy false false

theorem Regular.knows_of_target {action : Action} {effect : Effect}
    (resolved : before.resolve point loc action = .ok (after, effect))
    (given : action.target? = some name) : after.Knows name := by
  cases action with
  | bind place mutable source shadow copy =>
      cases given
      simp only [Builder.resolve, bind_eq_ok_iff] at resolved
      obtain ⟨_, _, ⟨middle, target⟩, bound, last, held, same⟩ := resolved
      cases same
      exact (regular.knows_of_bindTarget bound).of_alike (alike_hold held)
  | declare place mutable copy =>
      cases given
      simp only [Builder.resolve, bind_eq_ok_iff] at resolved
      obtain ⟨key, keyed, same⟩ := resolved
      cases same
      exact knows_declare (keyOf_eq_ok keyed) mutable copy true false
  | move dest src =>
      cases given
      simp only [Builder.resolve, bind_eq_ok_iff] at resolved
      obtain ⟨_, _, ⟨middle, target⟩, assigned, last, held, same⟩ := resolved
      cases same
      exact (regular.knows_of_assign assigned).of_alike (alike_hold held)
  | borrow kind dest referent =>
      cases given
      simp only [Builder.resolve, bind_eq_ok_iff] at resolved
      obtain ⟨_, _, ⟨middle, target⟩, assigned, last, held, same⟩ := resolved
      cases same
      exact (regular.knows_of_assign assigned).of_alike (alike_hold held)
  | _ => cases given

/-- After a statement each name that it mentions is known. -/
theorem Regular.knows_of_step {statement : Statement}
    (stepped : before.step point statement = .ok after)
    (mentioned : name ∈ statement.action.names) : after.Knows name := by
  rcases List.mem_append.mp mentioned with given | operand
  · rw [Option.mem_toList] at given
    obtain ⟨action, loc⟩ := statement
    simp only [Builder.step] at stepped
    split at stepped
    · cases given
    · cases given
    · rw [bind_eq_ok_iff] at stepped
      obtain ⟨⟨middle, effect⟩, resolved, same⟩ := stepped
      cases same
      exact ((regular.addItem _).knows_of_target resolved given).of_alike (alike_record _ _ _ _ _)
  · rw [Option.mem_toList] at operand
    obtain ⟨_, _, _, resolves⟩ := step_resolves stepped
    have looked := resolves.operand
    rw [Option.mem_def.mp operand, Option.mapM_some, map_eq_ok_iff] at looked
    obtain ⟨use, used, _⟩ := looked
    obtain ⟨place, found, known, keyed⟩ := regular.knows_of_use used
    obtain ⟨_, _, _, _, transition, _⟩ := step_cases regular.wellFormed stepped
    exact ⟨place, found, transition.declarations place found known, keyed⟩

end Knows

end Builder

theorem CodeUnit.key_of_scopeTree {unit : CodeUnit} {tree : ScopeTree} {statement : Statement}
    {name : Name} (built : unit.scopeTree = .ok tree) (listed : statement ∈ unit.statements)
    (mentioned : name ∈ statement.action.names) :
    ∃ place ∈ tree.places, name.key = .ok place.key := by
  obtain ⟨point, inside, rfl⟩ := List.mem_iff_getElem.mp listed
  have found := List.getElem?_eq_getElem inside
  obtain ⟨after, _, reachedNext, _, leads⟩ := leads_builderAt built inside
  have stepped := reachedNext
  rw [builderAt_succ found, bind_eq_ok_iff] at stepped
  obtain ⟨before, reached, stepped⟩ := stepped
  have early := Nat.le_of_lt inside
  have regular : before.Regular point :=
    ⟨wellFormed_builderAt early reached, indexed_builderAt early reached⟩
  obtain ⟨place, declared, known, keyed⟩ := regular.knows_of_step stepped mentioned
  obtain ⟨entry, there, rfl⟩ := Option.map_eq_some_iff.mp (leads.declared known)
  exact ⟨entry, List.mem_of_getElem? there, keyed⟩

/-- The shift of a unit that stands at the beginning. -/
def Shift.still : Shift where
  places := 0
  points := 0
  borrows := 0
  scopes := id

namespace Shift

theorem still_target (target : Target) : still.target target = target := by
  cases target with
  | existing place => rfl
  | fresh place shadowed rebinds => cases shadowed <;> rfl

theorem still_effect (effect : Effect) : still.effect effect = effect := by
  cases effect with
  | bind target source mutable copy =>
      rw [effect, still_target]
      cases source <;> rfl
  | declare target => rw [effect, still_target]
  | move target source =>
      rw [effect, still_target]
      rfl
  | borrow kind target source =>
      rw [effect, still_target]
      rfl
  | _ => rfl

theorem still_resolution : still.resolution = id := by
  funext resolution
  rw [Shift.resolution, still_effect]
  rfl

end Shift

namespace ScopeTree

/-- No place of one tree has the name of a place of the other. -/
def DisjointNames (early late : ScopeTree) : Prop :=
  ∀ place ∈ early.places, ∀ other ∈ late.places, place.key ≠ other.key

instance (early late : ScopeTree) : Decidable (early.DisjointNames late) :=
  inferInstanceAs (Decidable (∀ place ∈ early.places, ∀ other ∈ late.places, place.key ≠ other.key))

/-- The shift of a unit that follows another one, of which that many borrows were taken. -/
def shift (early : ScopeTree) (borrows : Nat) : Shift where
  places := early.places.length
  points := early.unit.endPoint
  borrows
  scopes := Shift.follow rootId early.scopes.length

/-- The places and inner scopes of one tree are found in another, shifted. -/
structure Embeds (shift : Shift) (guest host : ScopeTree) : Prop where
  places : ∀ place, place < guest.places.length →
    host.places[place + shift.places]? = (guest.places[place]?).map shift.place
  lists : ∀ scope, scope ≠ rootId → scope < guest.scopes.length →
    host.placesOf (shift.scopes scope) = (guest.placesOf scope).map (· + shift.places)

/-- A tree that is made of two trees, the second one shifted by the first. -/
structure Joins (early late : ScopeTree) (borrows : Nat) (tree : ScopeTree) : Prop where
  places : tree.places = early.places ++ late.places.map (early.shift borrows).place
  resolved : tree.resolved =
    early.resolved ++ late.resolved.map (early.shift borrows).resolution
  first : Embeds .still early tree
  second : Embeds (early.shift borrows) late tree

end ScopeTree

section Finish

variable {builder : Builder} {unit : CodeUnit} {tree : ScopeTree}
  (wellFormed : builder.WellFormed unit.endPoint) (finished : builder.finish unit = .ok tree)

include wellFormed finished

theorem Builder.current_of_finish : builder.current = ScopeTree.rootId := by
  have same := (finish_cases finished).2.1
  subst same
  exact (List.cons.inj (Leads.root_of_finish wellFormed finished).1).1

/-- The shift by a tree is the shift by the builder that it was finished from. -/
theorem Builder.shift_of_finish (borrows : Nat) :
    builder.shift unit.endPoint borrows = tree.shift borrows := by
  obtain ⟨_, isUnit, places, _, scopes⟩ := finish_cases finished
  simp only [Builder.shift, ScopeTree.shift, isUnit, places, scopes, List.length_modify,
    current_of_finish wellFormed finished]

end Finish

theorem ScopeTree.Joins.of_finish {early late tree : ScopeTree} {first second joined : CodeUnit}
    {prior guest host : Builder} {borrows : Nat} (wellFormed : prior.WellFormed first.endPoint)
    (finished : prior.finish first = .ok early) (guestFinished : guest.finish second = .ok late)
    (hostFinished : host.finish joined = .ok tree)
    (embeds : Builder.Embeds prior (early.shift borrows) guest host) :
    early.Joins late borrows tree := by
  obtain ⟨_, _, places, resolved, scopes⟩ := Builder.finish_cases finished
  obtain ⟨_, _, latePlaces, lateResolved, lateScopes⟩ := Builder.finish_cases guestFinished
  obtain ⟨_, _, allPlaces, allResolved, _⟩ := Builder.finish_cases hostFinished
  have listed := Builder.placesOf_of_finish hostFinished
  have isRoot := Builder.current_of_finish wellFormed finished
  have appended : tree.places = early.places ++ late.places.map (early.shift borrows).place := by
    rw [allPlaces, places, latePlaces]
    exact embeds.places
  refine ⟨appended, ?_, ⟨?_, ?_⟩, ⟨?_, ?_⟩⟩
  · rw [allResolved, resolved, lateResolved]
    exact embeds.resolved
  · intro place inside
    have unmoved : Shift.still.place = id := rfl
    rw [appended, unmoved, Option.map_id_apply]
    exact List.getElem?_append_left inside
  · intro scope notRoot inside
    have unmoved : (fun place : PlaceId => place + Shift.still.places) = id := rfl
    rw [scopes, List.length_modify] at inside
    rw [listed, Builder.placesOf_of_finish finished, unmoved, List.map_id]
    exact embeds.others scope inside (isRoot ▸ notRoot)
  · intro place _
    rw [allPlaces, latePlaces]
    exact embeds.getElem?_places place
  · intro scope notRoot _
    obtain ⟨inner, rfl⟩ := Nat.exists_eq_add_one_of_ne_zero notRoot
    rw [listed, Builder.placesOf_of_finish guestFinished, embeds.scopes_inner]
    exact embeds.inner inner

/-- Two units that have scope trees without a common name have one in a row. -/
theorem CodeUnit.joins_of_append {first second joined : CodeUnit} {early late : ScopeTree}
    (builtFirst : first.scopeTree = .ok early) (builtSecond : second.scopeTree = .ok late)
    (disjoint : early.DisjointNames late)
    (inRow : joined.statements = first.statements ++ second.statements) (borrows : Nat) :
    ∃ tree, joined.scopeTree = .ok tree ∧ early.Joins late borrows tree := by
  have mentioned : ∀ {statement name}, statement ∈ second.statements →
      name ∈ statement.action.names → ∃ place ∈ late.places, name.key = .ok place.key :=
    key_of_scopeTree builtSecond
  rw [scopeTree, bind_eq_ok_iff] at builtFirst builtSecond
  obtain ⟨prior, taken, finished⟩ := builtFirst
  obtain ⟨guest, guestTaken, guestFinished⟩ := builtSecond
  have regular := Builder.regular_empty.run taken
  have unknown : ∀ statement ∈ second.statements, ∀ name ∈ statement.action.names, ∀ key,
      name.key = .ok key → prior.Lacks key := by
    intro statement listed name mentions key keyed place there
    obtain ⟨other, alsoThere, same⟩ := mentioned listed mentions
    cases keyed.symm.trans same
    rw [← (Builder.finish_cases finished).2.2.1] at there
    exact disjoint place there other alsoThere
  rw [Nat.zero_add] at regular
  obtain ⟨host, hostTaken, embeds⟩ := (Builder.embeds_empty prior first.endPoint borrows).run
    regular Builder.regular_empty ((Nat.zero_add first.endPoint).symm ▸ regular) unknown guestTaken
  obtain ⟨tree, hostFinished⟩ : ∃ tree, host.finish joined = .ok tree := by
    have scopes := embeds.openScopes
    have alone : prior.outer = [] := (List.cons.inj (Builder.finish_cases finished).1).2
    rw [(Builder.finish_cases guestFinished).1, alone] at scopes
    have outer : host.outer = [] := (List.cons.inj scopes).2
    rw [Builder.finish, outer]
    exact ⟨_, rfl⟩
  refine ⟨tree, ?_, .of_finish regular.wellFormed finished guestFinished hostFinished ?_⟩
  · rw [scopeTree, inRow, Builder.run_append]
    exact bind_eq_ok_iff.mpr ⟨host, bind_eq_ok_iff.mpr ⟨prior, taken, hostTaken⟩, hostFinished⟩
  · rw [← Builder.shift_of_finish regular.wellFormed finished]
    exact embeds

end LoanCheck
