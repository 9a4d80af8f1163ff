import LoanCheck.Proofs.Scope.Operand

/-!
# A unit inside another one

Statements that are taken after others meet a builder that already has scopes and places.
What they do there is what they do on their own, with their places, points and scopes
shifted, as long as they mention no name that was declared before.  `Builder.Embeds` says
so of the builders, `guest` on its own and `host` after `prior`.
-/

namespace LoanCheck

/-- What is added to the places, points and borrows of a unit inside another one, and which
scopes its own are there. -/
structure Shift where
  places : Nat
  points : Nat
  borrows : Nat
  scopes : ScopeId → ScopeId

namespace Shift

/-- The scope of which an outermost scope becomes part; inner ones come after those there are. -/
def follow (root : ScopeId) (count : Nat) : ScopeId → ScopeId
  | 0 => root
  | scope + 1 => scope + count

variable (shift : Shift)

def place (place : Place) : Place :=
  { place with
    id := place.id + shift.places
    scope := shift.scopes place.scope
    point := place.point + shift.points }

def use (use : Use) : Use := { use with place := use.place + shift.places }

def target : Target → Target
  | .existing place => .existing (place + shift.places)
  | .fresh place shadowed rebinds =>
      .fresh (place + shift.places) (shadowed.map (· + shift.places)) rebinds

def effect : Effect → Effect
  | .enter => .enter
  | .exit closes => .exit (shift.scopes closes)
  | .bind target source mutable copy =>
      .bind (shift.target target) (source.map shift.use) mutable copy
  | .declare target => .declare (shift.target target)
  | .move target source => .move (shift.target target) (shift.use source)
  | .borrow kind target source => .borrow kind (shift.target target) (shift.use source)
  | .write source => .write (shift.use source)
  | .read source => .read (shift.use source)
  | .consume source => .consume (shift.use source)

def resolution (resolution : Resolution) : Resolution :=
  { point := resolution.point + shift.points
    scope := shift.scopes resolution.scope
    loc := resolution.loc
    effect := shift.effect resolution.effect }

/-- An entry of a table of names. -/
def entry (entry : Key × PlaceId) : Key × PlaceId := (entry.1, entry.2 + shift.places)

@[simp]
theorem target_place (target : Target) :
    (shift.target target).place = target.place + shift.places := by
  cases target <;> rfl

theorem lookup_map_entry (entries : List (Key × PlaceId)) (key : Key) :
    (entries.map shift.entry).lookup key = (entries.lookup key).map (· + shift.places) := by
  induction entries with
  | nil => rfl
  | cons first rest inductionHypothesis =>
      rw [List.map_cons, List.lookup_cons, List.lookup_cons, inductionHypothesis]
      cases same : key == first.1 <;> simp [entry, same]

end Shift

namespace Builder

/-- No place was declared under a name with the key. -/
def Lacks (builder : Builder) (key : Key) : Prop :=
  ∀ place ∈ builder.places, place.key ≠ key

/-- How statements are shifted that are taken after a builder was reached. -/
def shift (prior : Builder) (points borrows : Nat) : Shift where
  places := prior.places.length
  points
  borrows
  scopes := Shift.follow prior.current prior.scopes.length

/-- What a builder has after the statements of a unit, taken on their own and after a prior
builder. -/
structure Embeds (prior : Builder) (shift : Shift) (guest host : Builder) : Prop where
  fits : shift = prior.shift shift.points shift.borrows
  places : host.places = prior.places ++ guest.places.map shift.place
  resolved : host.resolved = prior.resolved ++ guest.resolved.map shift.resolution
  openScopes : host.openScopes = guest.openScopes.map shift.scopes ++ prior.outer
  closed : host.closed = guest.closed.map shift.entry ++ prior.closed
  scopeCount : host.scopes.length + 1 = guest.scopes.length + prior.scopes.length
  /-- The outermost scope goes on with the innermost open scope that was there. -/
  root : host.placesIn prior.current =
    prior.placesIn prior.current ++ (guest.placesIn ScopeTree.rootId).map (· + shift.places)
  inner : ∀ scope, host.placesIn (scope + prior.scopes.length) =
    (guest.placesIn (scope + 1)).map (· + shift.places)
  others : ∀ scope, scope < prior.scopes.length → scope ≠ prior.current →
    host.placesIn scope = prior.placesIn scope

theorem embeds_empty (prior : Builder) (points borrows : Nat) :
    Embeds prior (prior.shift points borrows) {} prior where
  fits := rfl
  places := (List.append_nil _).symm
  resolved := (List.append_nil _).symm
  openScopes := rfl
  closed := rfl
  scopeCount := Nat.add_comm _ _
  root := (List.append_nil _).symm
  inner := by
    intro scope
    simp [placesIn, outline?]
  others := fun _ _ _ => rfl

theorem Indexed.inScope?_eq_lookup {builder : Builder} (indexed : builder.Indexed) (key : Key)
    (scope : ScopeId) :
    builder.inScope? key scope = (builder.entriesOf scope).reverse.lookup key := by
  rw [Builder.inScope?_eq]
  cases known : builder.outline? scope with
  | none => simp [entriesOf, placesIn, known]
  | some found =>
      rw [← indexed.entries scope found known]
      rfl

/-- Changing an element of a moved list is moving the changed list. -/
theorem modify_append_map {Alpha : Type} (front rest : List Alpha) (index : Nat)
    {move change : Alpha → Alpha} (commutes : ∀ value, change (move value) = move (change value)) :
    (front ++ rest.map move).modify (index + front.length) change =
      front ++ (rest.modify index change).map move := by
  apply List.ext_getElem?
  intro position
  rw [List.getElem?_modify]
  rcases Nat.lt_or_ge position front.length with early | late
  · have other : index + front.length ≠ position := by omega
    rw [List.getElem?_append_left early, List.getElem?_append_left early]
    simp [other]
  · obtain ⟨offset, rfl⟩ := Nat.exists_eq_add_of_le late
    rw [List.getElem?_append_right late, List.getElem?_append_right late, Nat.add_sub_cancel_left,
      List.getElem?_map, List.getElem?_map, List.getElem?_modify]
    cases rest[offset]? with
    | none => rfl
    | some value => by_cases same : index = offset <;> simp [same, commutes, Nat.add_comm]

/-- A scope that is left is not the outermost one. -/
theorem WellFormed.current_ne_root {builder next : Builder} {point : Point} {loc : Span}
    (wellFormed : builder.WellFormed point) (left : builder.exit point loc = .ok next) :
    builder.current ≠ ScopeTree.rootId := by
  intro isRoot
  have distinct := wellFormed.nodup
  rw [(exit_cases left).1, List.nodup_cons, isRoot] at distinct
  obtain ⟨inner, rooted⟩ := (wellFormed.exit left).root
  apply distinct.1
  rw [rooted]
  exact List.mem_append_right inner List.mem_cons_self

/-- The scopes, names and tables of a builder fit together. -/
structure Regular (builder : Builder) (point : Point) : Prop where
  wellFormed : builder.WellFormed point
  indexed : builder.Indexed

namespace Regular

variable {builder next : Builder} {point : Point} (regular : builder.Regular point)

include regular

theorem addItem (item : ScopeItem) : (builder.addItem item).Regular point :=
  ⟨regular.wellFormed.of_alike (alike_addItem builder item),
    regular.indexed.of_alike (alike_addItem builder item) rfl⟩

theorem step {statement : Statement} (stepped : builder.step point statement = .ok next) :
    next.Regular (point + 1) := by
  obtain ⟨_, _, _, _, _, wellFormed⟩ := step_cases regular.wellFormed stepped
  exact ⟨wellFormed, regular.indexed.step regular.wellFormed (step_resolves stepped).1⟩

theorem run {statements : List Statement} (taken : builder.run point statements = .ok next) :
    next.Regular (point + statements.length) := by
  induction statements generalizing builder point with
  | nil =>
      cases taken
      exact regular
  | cons statement rest inductionHypothesis =>
      rw [Builder.run, bind_eq_ok_iff] at taken
      obtain ⟨middle, stepped, taken⟩ := taken
      rw [List.length_cons, Nat.add_comm rest.length, ← Nat.add_assoc]
      exact inductionHypothesis (regular.step stepped) taken

end Regular

theorem regular_empty : Regular {} 0 := ⟨wellFormed_empty, .empty⟩

section Lacks

variable {prior : Builder} {key : Key} (lacks : prior.Lacks key)

include lacks

theorem Lacks.key_ne {place : PlaceId} {found : Place}
    (known : prior.declared? place = some found) : found.key ≠ key := by
  obtain ⟨entry, listed, rfl⟩ := Option.map_eq_some_iff.mp known
  exact lacks entry (List.mem_of_getElem? listed)

theorem Lacks.lookup_entriesOf (scope : ScopeId) :
    (prior.entriesOf scope).reverse.lookup key = none := by
  rw [List.lookup_eq_none_iff]
  intro entry membership
  rw [List.mem_reverse, entriesOf, List.mem_filterMap] at membership
  obtain ⟨place, _, entered⟩ := membership
  obtain ⟨found, known, rfl⟩ := Option.map_eq_some_iff.mp entered
  exact bne_iff_ne.mpr (lacks.key_ne known).symm

theorem Lacks.lookup_closed {points : Point} (wellFormed : prior.WellFormed points)
    (indexed : prior.Indexed) : prior.closed.lookup key = none := by
  cases found : prior.closed.lookup key with
  | none => rfl
  | some place =>
      obtain ⟨scope, _, _, named, _⟩ := indexed.closed key place found
      obtain ⟨entry, known, _, keyed⟩ := wellFormed.named key scope place named
      exact absurd keyed (lacks.key_ne known)

end Lacks

namespace Embeds

variable {prior guest host : Builder} {shift : Shift} (embeds : Embeds prior shift guest host)

include embeds

theorem shift_places : shift.places = prior.places.length := by
  rw [embeds.fits]
  rfl

theorem scopes_root : shift.scopes ScopeTree.rootId = prior.current := by
  rw [embeds.fits]
  rfl

theorem scopes_inner (scope : ScopeId) :
    shift.scopes (scope + 1) = scope + prior.scopes.length := by
  rw [embeds.fits]
  rfl

theorem getElem?_places (place : PlaceId) :
    host.places[place + shift.places]? = (guest.places[place]?).map shift.place := by
  rw [embeds.places, embeds.shift_places, List.getElem?_append_right (Nat.le_add_left _ _),
    Nat.add_sub_cancel, List.getElem?_map]

theorem length_places : host.places.length = guest.places.length + shift.places := by
  rw [embeds.places, List.length_append, List.length_map, embeds.shift_places, Nat.add_comm]

theorem holding?_eq (place : PlaceId) :
    host.holding? (place + shift.places) = guest.holding? place := by
  rw [holding?, embeds.getElem?_places, holding?]
  cases guest.places[place]? <;> rfl

theorem isAssignable_eq (place : PlaceId) :
    host.isAssignable (place + shift.places) = guest.isAssignable place := by
  rw [isAssignable, embeds.getElem?_places, isAssignable]
  cases guest.places[place]? <;> rfl

/-- The entries of places are shifted with them. -/
theorem filterMap_entries (places : List PlaceId) :
    ((places.map (· + shift.places)).filterMap fun place =>
        (host.declared? place).map fun found => (found.key, place)) =
      (places.filterMap fun place =>
        (guest.declared? place).map fun found => (found.key, place)).map shift.entry := by
  rw [List.filterMap_map, List.map_filterMap]
  apply List.filterMap_congr
  intro place _
  rw [Function.comp_apply, declared?, embeds.getElem?_places, declared?]
  cases guest.places[place]? <;> rfl

theorem entriesOf_inner (scope : ScopeId) :
    host.entriesOf (scope + prior.scopes.length) =
      (guest.entriesOf (scope + 1)).map shift.entry := by
  rw [entriesOf, embeds.inner, embeds.filterMap_entries, entriesOf]

section Prior

variable {points : Point} (wellFormed : prior.WellFormed points)

include wellFormed

theorem filterMap_prior (scope : ScopeId) :
    ((prior.placesIn scope).filterMap fun place =>
        (host.declared? place).map fun found => (found.key, place)) =
      prior.entriesOf scope := by
  apply List.filterMap_congr
  intro place listed
  obtain ⟨found, known, _⟩ := (wellFormed.listed scope place).mp listed
  obtain ⟨entry, there, _⟩ := Option.map_eq_some_iff.mp known
  have early := (List.getElem?_eq_some_iff.mp there).1
  rw [declared?, embeds.places, List.getElem?_append_left early, declared?]

theorem entriesOf_root :
    host.entriesOf prior.current =
      prior.entriesOf prior.current ++ (guest.entriesOf ScopeTree.rootId).map shift.entry := by
  rw [entriesOf, embeds.root, List.filterMap_append, embeds.filterMap_prior wellFormed,
    embeds.filterMap_entries]
  rfl

variable (hostIndexed : host.Indexed) {key : Key} (lacks : prior.Lacks key)

include hostIndexed lacks

/-- An outer scope that was there has no place of the name. -/
theorem inScope?_outer {scope : ScopeId} (isOuter : scope ∈ prior.outer) :
    host.inScope? key scope = none := by
  have distinct : prior.current ∉ prior.outer := (List.nodup_cons.mp wellFormed.nodup).1
  have other : scope ≠ prior.current := by
    rintro rfl
    exact distinct isOuter
  have there := wellFormed.bounded scope (List.mem_cons_of_mem _ isOuter)
  rw [hostIndexed.inScope?_eq_lookup, entriesOf, embeds.others scope there other,
    embeds.filterMap_prior wellFormed]
  exact lacks.lookup_entriesOf scope

variable (guestIndexed : guest.Indexed)

include guestIndexed

theorem inScope?_eq (scope : ScopeId) :
    host.inScope? key (shift.scopes scope) = (guest.inScope? key scope).map (· + shift.places) := by
  rw [hostIndexed.inScope?_eq_lookup, guestIndexed.inScope?_eq_lookup]
  cases scope with
  | zero =>
      have root : shift.scopes 0 = prior.current := embeds.scopes_root
      rw [root, embeds.entriesOf_root wellFormed, List.reverse_append, List.lookup_append,
        lacks.lookup_entriesOf, Option.or_none, ← List.map_reverse, shift.lookup_map_entry]
      rfl
  | succ scope =>
      rw [embeds.scopes_inner, embeds.entriesOf_inner, ← List.map_reverse, shift.lookup_map_entry]

theorem visible?_eq : host.visible? key = (guest.visible? key).map (· + shift.places) := by
  have outside : prior.outer.findSome? (host.inScope? key) = none := by
    rw [List.findSome?_eq_none_iff]
    intro scope isOuter
    exact embeds.inScope?_outer wellFormed hostIndexed lacks isOuter
  have inside : host.inScope? key ∘ shift.scopes =
      Option.map (· + shift.places) ∘ guest.inScope? key := by
    funext scope
    exact embeds.inScope?_eq wellFormed hostIndexed lacks guestIndexed scope
  have scopes : host.current :: host.outer = _ := embeds.openScopes
  rw [visible?, scopes, List.findSome?_append, outside, Option.or_none, List.findSome?_map, inside,
    ← List.map_findSome?]
  rfl

end Prior

theorem current_eq : host.current = shift.scopes guest.current :=
  (List.cons.inj embeds.openScopes).1

theorem addItem (item other : ScopeItem) :
    Embeds prior shift (guest.addItem item) (host.addItem other) := by
  have guestAlike := alike_addItem guest item
  have hostAlike := alike_addItem host other
  refine { embeds with
    openScopes := embeds.openScopes, scopeCount := ?_, root := ?_, inner := ?_, others := ?_ }
  · rw [guestAlike.scopeCount, hostAlike.scopeCount]
    exact embeds.scopeCount
  · rw [guestAlike.lists, hostAlike.lists]
    exact embeds.root
  · rw [guestAlike.lists, hostAlike.lists]
    exact embeds.inner
  · rw [hostAlike.lists]
    exact embeds.others

theorem record (point : Point) (scope : ScopeId) (loc : Span) (effect : Effect) :
    Embeds prior shift (guest.record point scope loc effect)
      (host.record (point + shift.points) (shift.scopes scope) loc (shift.effect effect)) := by
  refine { embeds with resolved := ?_, openScopes := embeds.openScopes }
  simp only [Builder.record, embeds.resolved, List.map_append, List.append_assoc, List.map_cons,
    List.map_nil, Shift.resolution]

theorem hold {next : Builder} {point : Point} {loc : Span} {place : PlaceId}
    {holding : Option Holding} (held : guest.hold point loc place holding = .ok next) :
    ∃ hostNext, host.hold (point + shift.points) loc (place + shift.places) holding =
        .ok hostNext ∧ Embeds prior shift next hostNext := by
  cases holding with
  | none =>
      cases held
      exact ⟨host, rfl, embeds⟩
  | some given =>
      have there := embeds.getElem?_places place
      simp only [Builder.hold, there] at held ⊢
      cases found : guest.places[place]? with
      | none =>
          simp only [found, Except.ok.injEq] at held
          subst held
          exact ⟨host, rfl, embeds⟩
      | some entry =>
          simp only [found, Option.map_some] at held ⊢
          split at held
          · cases held
          · next compatible =>
              cases held
              refine ⟨_, if_neg compatible, { embeds with places := ?_ }⟩
              simp only [embeds.places, embeds.shift_places]
              exact modify_append_map _ _ place fun _ => rfl

section Declare

variable {points : Point} (wellFormed : prior.WellFormed points)

include wellFormed

theorem current_eq_scopes_iff (scope : ScopeId) :
    prior.current = shift.scopes scope ↔ ScopeTree.rootId = scope := by
  cases scope with
  | zero => exact iff_of_true embeds.scopes_root.symm rfl
  | succ inner =>
      rw [embeds.scopes_inner]
      refine iff_of_false (Nat.ne_of_lt ?_) (Nat.zero_ne_add_one inner)
      exact Nat.lt_of_lt_of_le wellFormed.current_lt (Nat.le_add_left _ _)

theorem inner_eq_scopes_iff (scope other : ScopeId) :
    scope + prior.scopes.length = shift.scopes other ↔ scope + 1 = other := by
  cases other with
  | zero =>
      have root : shift.scopes 0 = prior.current := embeds.scopes_root
      rw [root]
      refine iff_of_false (Nat.ne_of_gt ?_) (Nat.add_one_ne_zero scope)
      exact Nat.lt_of_lt_of_le wellFormed.current_lt (Nat.le_add_left _ _)
  | succ inner => rw [embeds.scopes_inner, Nat.add_right_cancel_iff, Nat.add_right_cancel_iff]

omit wellFormed in
theorem ne_scopes {scope : ScopeId} (there : scope < prior.scopes.length)
    (different : scope ≠ prior.current) (other : ScopeId) : scope ≠ shift.scopes other := by
  cases other with
  | zero =>
      have root : shift.scopes 0 = prior.current := embeds.scopes_root
      rw [root]
      exact different
  | succ inner =>
      rw [embeds.scopes_inner]
      exact Nat.ne_of_lt (Nat.lt_of_lt_of_le there (Nat.le_add_left _ _))

theorem declare (guestInside : guest.current < guest.scopes.length)
    (hostInside : host.current < host.scopes.length) (point : Point) (name : Name) (key : Key)
    (mutable copy : Flag) (deferred rebinds : Bool) :
    Embeds prior shift (guest.declare point name key mutable copy deferred rebinds).1
      (host.declare (point + shift.points) name key mutable copy deferred rebinds).1 := by
  have current := embeds.current_eq
  have count := embeds.length_places
  refine { embeds with
    places := ?_, openScopes := embeds.openScopes, scopeCount := ?_, root := ?_, inner := ?_
    others := ?_ }
  · simp only [Builder.declare, embeds.places, List.map_append, List.append_assoc, List.map_cons,
      List.map_nil, Shift.place, current, embeds.shift_places, List.length_append,
      List.length_map, Nat.add_comm]
  · rw [length_scopes_declare, length_scopes_declare]
    exact embeds.scopeCount
  · rw [placesIn_declare _ _ _ _ _ _ _ _ guestInside, placesIn_declare _ _ _ _ _ _ _ _ hostInside,
      current, count, embeds.root]
    simp only [embeds.current_eq_scopes_iff wellFormed]
    split
    · rw [List.map_append, List.append_assoc]
      rfl
    · rfl
  · intro scope
    rw [placesIn_declare _ _ _ _ _ _ _ _ guestInside, placesIn_declare _ _ _ _ _ _ _ _ hostInside,
      current, count, embeds.inner]
    simp only [embeds.inner_eq_scopes_iff wellFormed]
    split
    · rw [List.map_append]
      rfl
    · rfl
  · intro scope there other
    rw [placesIn_declare _ _ _ _ _ _ _ _ hostInside, current,
      if_neg (embeds.ne_scopes there other _)]
    exact embeds.others scope there other

end Declare

theorem enter (point : Point) (loc : Span) (inner : 0 < guest.scopes.length) :
    Embeds prior shift (guest.enter point loc) (host.enter (point + shift.points) loc) := by
  have count : host.scopes.length = shift.scopes guest.scopes.length := by
    obtain ⟨others, counted⟩ := Nat.exists_eq_add_one.mpr inner
    have total := embeds.scopeCount
    rw [counted, embeds.scopes_inner]
    omega
  refine { embeds with
    resolved := ?_, openScopes := ?_, scopeCount := ?_, root := ?_, inner := ?_, others := ?_ }
  · simp only [Builder.enter, Builder.record, Builder.addItem, embeds.resolved, List.map_append,
      List.append_assoc, List.map_cons, List.map_nil, Shift.resolution, Shift.effect,
      embeds.current_eq]
  · rw [openScopes_enter, openScopes_enter, embeds.openScopes, count]
    rfl
  · rw [length_scopes_enter, length_scopes_enter, embeds.scopeCount]
    omega
  · rw [placesIn_enter, placesIn_enter]
    exact embeds.root
  · rw [placesIn_enter, placesIn_enter]
    exact embeds.inner
  · rw [placesIn_enter]
    exact embeds.others

theorem exit {next : Builder} {point : Point} {loc : Span}
    (notRoot : guest.current ≠ ScopeTree.rootId) (left : guest.exit point loc = .ok next) :
    ∃ hostNext, host.exit (point + shift.points) loc = .ok hostNext ∧
      Embeds prior shift next hostNext := by
  obtain ⟨scopes, _, places, count, resolved⟩ := exit_cases left
  have opened := embeds.openScopes
  rw [scopes, List.map_cons, List.cons_append, ← embeds.current_eq] at opened
  obtain ⟨hostNext, hostLeft⟩ :
      ∃ hostNext, host.exit (point + shift.points) loc = .ok hostNext := by
    have outer : host.outer = _ := (List.cons.inj opened).2
    simp only [Builder.exit, outer]
    exact ⟨_, rfl⟩
  obtain ⟨hostScopes, _, hostPlaces, hostCount, hostResolved⟩ := exit_cases hostLeft
  have entries : host.entriesOf host.current = (guest.entriesOf guest.current).map shift.entry := by
    obtain ⟨scope, inner⟩ := Nat.exists_eq_add_one_of_ne_zero notRoot
    rw [embeds.current_eq, inner, embeds.scopes_inner, embeds.entriesOf_inner]
  refine ⟨hostNext, hostLeft, embeds.fits, ?_, ?_, ?_, ?_, ?_, ?_, ?_, ?_⟩
  · rw [places, hostPlaces]
    exact embeds.places
  · rw [resolved, hostResolved, embeds.resolved, List.map_append, List.append_assoc,
      embeds.current_eq]
    rfl
  · rw [hostScopes] at opened
    exact (List.cons.inj opened).2
  · rw [Indexed.closed_exit hostLeft, Indexed.closed_exit left, Indexed.endedNames_eq,
      Indexed.endedNames_eq, entries, embeds.closed, List.map_append, List.map_reverse,
      List.append_assoc]
  · rw [count, hostCount]
    exact embeds.scopeCount
  · rw [placesIn_exit left, placesIn_exit hostLeft]
    exact embeds.root
  · rw [placesIn_exit left, placesIn_exit hostLeft]
    exact embeds.inner
  · rw [placesIn_exit hostLeft]
    exact embeds.others

section Statements

variable {point : Point} {loc : Span} (priorRegular : prior.Regular shift.points)
  (guestRegular : guest.Regular point) (hostRegular : host.Regular (point + shift.points))

include priorRegular guestRegular hostRegular

theorem use {name : Name} {found : Use}
    (unknown : ∀ key, name.key = .ok key → prior.Lacks key)
    (used : guest.use point loc name = .ok found) :
    host.use (point + shift.points) loc name = .ok (shift.use found) := by
  simp only [Builder.use, bind_eq_ok_iff] at used ⊢
  obtain ⟨key, keyed, chosen⟩ := used
  refine ⟨key, keyed, ?_⟩
  have lacks := unknown key (keyOf_eq_ok keyed)
  rw [embeds.visible?_eq priorRegular.wellFormed hostRegular.indexed lacks guestRegular.indexed,
    embeds.closed, List.lookup_append,
    lacks.lookup_closed priorRegular.wellFormed priorRegular.indexed, Option.or_none,
    shift.lookup_map_entry]
  cases visible : guest.visible? key with
  | some place =>
      rw [visible] at chosen
      cases chosen
      rfl
  | none =>
      simp only [visible] at chosen
      cases ended : guest.closed.lookup key with
      | none => simp [ended] at chosen
      | some place =>
          simp only [ended, Option.map_none, Option.map_some, embeds.holding?_eq] at chosen ⊢
          split at chosen
          · next reference =>
              cases chosen
              rw [if_pos reference]
              rfl
          · cases chosen

/-- A new place of the same name stands in the shifted scope. -/
theorem declare_eq {key : Key} (lacks : prior.Lacks key) (name : Name) (mutable copy : Flag)
    (deferred rebinds : Bool) :
    ∃ hostNext, host.declare (point + shift.points) name key mutable copy deferred rebinds =
        (hostNext, shift.target (guest.declare point name key mutable copy deferred rebinds).2) ∧
      Embeds prior shift (guest.declare point name key mutable copy deferred rebinds).1
        hostNext := by
  refine ⟨_, ?_, embeds.declare priorRegular.wellFormed guestRegular.wellFormed.current_lt
    hostRegular.wellFormed.current_lt point name key mutable copy deferred rebinds⟩
  have shadowed := embeds.inScope?_eq priorRegular.wellFormed hostRegular.indexed lacks
    guestRegular.indexed guest.current
  rw [← embeds.current_eq] at shadowed
  simp only [Builder.declare, Shift.target, shadowed, embeds.length_places]

theorem assign {name : Name} {next : Builder} {target : Target}
    (unknown : ∀ key, name.key = .ok key → prior.Lacks key)
    (assigned : guest.assign point name = .ok (next, target)) :
    ∃ hostNext, host.assign (point + shift.points) name = .ok (hostNext, shift.target target) ∧
      Embeds prior shift next hostNext := by
  rw [Builder.assign, bind_eq_ok_iff] at assigned
  obtain ⟨key, keyed, chosen⟩ := assigned
  have lacks := unknown key (keyOf_eq_ok keyed)
  have hostVisible := embeds.visible?_eq priorRegular.wellFormed hostRegular.indexed lacks
    guestRegular.indexed
  obtain ⟨declared, isDeclared, related⟩ := embeds.declare_eq priorRegular guestRegular hostRegular
    lacks name (.bool false) (.bool false) false false
  cases visible : guest.visible? key with
  | none =>
      rw [visible] at chosen hostVisible
      cases chosen
      refine ⟨declared, bind_eq_ok_iff.mpr ⟨key, keyed, ?_⟩, related⟩
      rw [hostVisible, isDeclared]
      rfl
  | some place =>
      rw [visible] at chosen hostVisible
      simp only at chosen
      split at chosen
      · next assignable =>
          cases chosen
          refine ⟨host, bind_eq_ok_iff.mpr ⟨key, keyed, ?_⟩, embeds⟩
          rw [hostVisible]
          exact if_pos ((embeds.isAssignable_eq place).trans assignable)
      · next fixed =>
          cases chosen
          refine ⟨declared, bind_eq_ok_iff.mpr ⟨key, keyed, ?_⟩, related⟩
          rw [hostVisible, isDeclared]
          exact if_neg ((embeds.isAssignable_eq place).symm ▸ fixed)

theorem bindTarget {name : Name} {mutable shadow copy : Flag} {holding : Option Holding}
    {next : Builder} {target : Target}
    (unknown : ∀ key, name.key = .ok key → prior.Lacks key)
    (bound : guest.bindTarget point name mutable shadow copy holding = .ok (next, target)) :
    ∃ hostNext, host.bindTarget (point + shift.points) name mutable shadow copy holding =
        .ok (hostNext, shift.target target) ∧ Embeds prior shift next hostNext := by
  rw [Builder.bindTarget, bind_eq_ok_iff] at bound
  obtain ⟨key, keyed, chosen⟩ := bound
  have lacks := unknown key (keyOf_eq_ok keyed)
  have declares := embeds.declare_eq priorRegular guestRegular hostRegular lacks name mutable copy
    false
  have named := embeds.inScope?_eq priorRegular.wellFormed hostRegular.indexed lacks
    guestRegular.indexed guest.current
  rw [← embeds.current_eq] at named
  cases inCurrent : guest.inScope? key guest.current with
  | none =>
      obtain ⟨declared, isDeclared, related⟩ := declares false
      rw [inCurrent] at chosen named
      cases chosen
      refine ⟨declared, bind_eq_ok_iff.mpr ⟨key, keyed, ?_⟩, related⟩
      rw [named, isDeclared]
      rfl
  | some place =>
      have changes : host.changesKind (place + shift.places) holding =
          guest.changesKind place holding := by
        simp only [changesKind, embeds.holding?_eq]
      rw [inCurrent] at chosen named
      simp only at chosen
      split at chosen
      · next again =>
          cases chosen
          refine ⟨host, bind_eq_ok_iff.mpr ⟨key, keyed, ?_⟩, embeds⟩
          rw [named]
          exact if_pos (changes.symm ▸ again)
      · next anew =>
          obtain ⟨declared, isDeclared, related⟩ := declares (!shadow.isTrue)
          cases chosen
          refine ⟨declared, bind_eq_ok_iff.mpr ⟨key, keyed, ?_⟩, related⟩
          rw [named, isDeclared]
          exact if_neg (changes.symm ▸ anew)

theorem mapM_use {source : Option Name} {found : Option Use}
    (unknown : ∀ name ∈ source, ∀ key, name.key = .ok key → prior.Lacks key)
    (used : source.mapM (guest.use point loc) = .ok found) :
    source.mapM (host.use (point + shift.points) loc) = .ok (found.map shift.use) := by
  cases source with
  | none =>
      cases used
      rfl
  | some name =>
      rw [Option.mapM_some, map_eq_ok_iff] at used
      obtain ⟨single, used, rfl⟩ := used
      exact Builder.mapM_use
        (embeds.use priorRegular guestRegular hostRegular (unknown name rfl) used)

theorem resolve {action : Action} {next : Builder} {effect : Effect}
    (unknown : ∀ name ∈ action.names, ∀ key, name.key = .ok key → prior.Lacks key)
    (resolved : guest.resolve point loc action = .ok (next, effect)) :
    ∃ hostNext, host.resolve (point + shift.points) loc action =
        .ok (hostNext, shift.effect effect) ∧ Embeds prior shift next hostNext := by
  have operand : ∀ name ∈ action.operand?, ∀ key, name.key = .ok key → prior.Lacks key :=
    fun name used => unknown name (List.mem_append_right _ (Option.mem_toList.mpr used))
  have given : ∀ name ∈ action.target?, ∀ key, name.key = .ok key → prior.Lacks key :=
    fun name target => unknown name (List.mem_append_left _ (Option.mem_toList.mpr target))
  cases action with
  | bind name mutable source shadow copy =>
      simp only [Builder.resolve, bind_eq_ok_iff] at resolved
      obtain ⟨uses, used, ⟨middle, target⟩, bound, last, held, same⟩ := resolved
      cases same
      have hostUsed := embeds.mapM_use priorRegular guestRegular hostRegular operand used
      obtain ⟨hostMiddle, hostBound, between⟩ :=
        embeds.bindTarget priorRegular guestRegular hostRegular (given name rfl) bound
      obtain ⟨hostNext, hostHeld, after⟩ := between.hold held
      refine ⟨hostNext, ?_, after⟩
      simp only [Builder.resolve, bind_eq_ok_iff]
      refine ⟨_, hostUsed, (hostMiddle, shift.target target), ?_⟩
      cases uses with
      | none => exact ⟨hostBound, hostNext, (shift.target_place target).symm ▸ hostHeld, rfl⟩
      | some use =>
          simp only [Option.map_some, Shift.use, embeds.holding?_eq, shift.target_place]
          exact ⟨hostBound, hostNext, hostHeld, rfl⟩
  | declare name mutable copy =>
      simp only [Builder.resolve, bind_eq_ok_iff] at resolved
      obtain ⟨key, keyed, same⟩ := resolved
      cases same
      obtain ⟨hostNext, declared, after⟩ := embeds.declare_eq priorRegular guestRegular hostRegular
        (given name rfl key (keyOf_eq_ok keyed)) name mutable copy true false
      refine ⟨hostNext, ?_, after⟩
      refine bind_eq_ok_iff.mpr ⟨key, keyed, ?_⟩
      rw [declared]
      rfl
  | move dest src =>
      simp only [Builder.resolve, bind_eq_ok_iff] at resolved
      obtain ⟨source, used, ⟨middle, target⟩, assigned, last, held, same⟩ := resolved
      cases same
      have hostUsed := embeds.use priorRegular guestRegular hostRegular (operand src rfl) used
      obtain ⟨hostMiddle, hostAssigned, between⟩ :=
        embeds.assign priorRegular guestRegular hostRegular (given dest rfl) assigned
      obtain ⟨hostNext, hostHeld, after⟩ := between.hold held
      refine ⟨hostNext, ?_, after⟩
      simp only [Builder.resolve, bind_eq_ok_iff]
      refine ⟨_, hostUsed, _, hostAssigned, hostNext, ?_, rfl⟩
      simp only [Shift.use, between.holding?_eq, shift.target_place]
      exact hostHeld
  | borrow kind dest referent =>
      simp only [Builder.resolve, bind_eq_ok_iff] at resolved
      obtain ⟨source, used, ⟨middle, target⟩, assigned, last, held, same⟩ := resolved
      cases same
      have hostUsed := embeds.use priorRegular guestRegular hostRegular (operand referent rfl) used
      obtain ⟨hostMiddle, hostAssigned, between⟩ :=
        embeds.assign priorRegular guestRegular hostRegular (given dest rfl) assigned
      obtain ⟨hostNext, hostHeld, after⟩ := between.hold held
      refine ⟨hostNext, ?_, after⟩
      simp only [Builder.resolve, bind_eq_ok_iff]
      refine ⟨_, hostUsed, _, hostAssigned, hostNext, ?_, rfl⟩
      simp only [shift.target_place]
      exact hostHeld
  | write place | read place | consume place =>
      simp only [Builder.resolve, bind_eq_ok_iff] at resolved
      obtain ⟨source, used, same⟩ := resolved
      cases same
      have hostUsed := embeds.use priorRegular guestRegular hostRegular (operand place rfl) used
      exact ⟨host, bind_eq_ok_iff.mpr ⟨_, hostUsed, rfl⟩, embeds⟩
  | enter =>
      cases resolved
      exact ⟨host, rfl, embeds⟩
  | exit =>
      cases resolved
      exact ⟨host, by rw [Builder.resolve, embeds.current_eq]; rfl, embeds⟩

theorem step {statement : Statement} {next : Builder}
    (unknown : ∀ name ∈ statement.action.names, ∀ key, name.key = .ok key → prior.Lacks key)
    (stepped : guest.step point statement = .ok next) :
    ∃ hostNext, host.step (point + shift.points) statement = .ok hostNext ∧
      Embeds prior shift next hostNext := by
  obtain ⟨action, loc⟩ := statement
  have inner : ∀ {effect : Effect} {middle : Builder},
      (guest.addItem (.point point)).resolve point loc action = .ok (middle, effect) →
        ∃ hostMiddle, (host.addItem (.point (point + shift.points))).resolve
            (point + shift.points) loc action = .ok (hostMiddle, shift.effect effect) ∧
          Embeds prior shift middle hostMiddle := by
    intro effect middle resolved
    exact (embeds.addItem _ _).resolve priorRegular (guestRegular.addItem _)
      (hostRegular.addItem _) unknown resolved
  cases action with
  | enter =>
      cases stepped
      exact ⟨_, rfl, embeds.enter point loc
        (Nat.lt_of_le_of_lt (Nat.zero_le _) guestRegular.wellFormed.current_lt)⟩
  | exit =>
      exact embeds.exit (guestRegular.wellFormed.current_ne_root stepped) stepped
  | _ =>
      simp only [Builder.step, bind_eq_ok_iff] at stepped ⊢
      obtain ⟨⟨middle, effect⟩, resolved, same⟩ := stepped
      obtain ⟨hostMiddle, hostResolved, between⟩ := inner resolved
      cases same
      refine ⟨_, ⟨_, hostResolved, rfl⟩, ?_⟩
      simp only [between.current_eq]
      exact between.record point middle.current loc effect

end Statements

/-- Statements that mention no name declared before do after the prior builder what they do on
their own. -/
theorem run {point : Point} {statements : List Statement} {next : Builder}
    (priorRegular : prior.Regular shift.points) (guestRegular : guest.Regular point)
    (hostRegular : host.Regular (point + shift.points))
    (unknown : ∀ statement ∈ statements, ∀ name ∈ statement.action.names, ∀ key,
      name.key = .ok key → prior.Lacks key)
    (taken : guest.run point statements = .ok next) :
    ∃ hostNext, host.run (point + shift.points) statements = .ok hostNext ∧
      Embeds prior shift next hostNext := by
  induction statements generalizing guest host point with
  | nil =>
      cases taken
      exact ⟨host, rfl, embeds⟩
  | cons statement rest inductionHypothesis =>
      rw [Builder.run, bind_eq_ok_iff] at taken
      obtain ⟨middle, stepped, taken⟩ := taken
      obtain ⟨hostMiddle, hostStepped, between⟩ := embeds.step priorRegular guestRegular hostRegular
        (unknown statement List.mem_cons_self) stepped
      have later := hostRegular.step hostStepped
      rw [Nat.add_right_comm] at later
      obtain ⟨hostNext, hostTaken, after⟩ := inductionHypothesis between
        (guestRegular.step stepped) later
        (fun other listed => unknown other (List.mem_cons_of_mem _ listed)) taken
      refine ⟨hostNext, bind_eq_ok_iff.mpr ⟨hostMiddle, hostStepped, ?_⟩, after⟩
      rw [Nat.add_right_comm]
      exact hostTaken

end Embeds

end Builder

end LoanCheck
