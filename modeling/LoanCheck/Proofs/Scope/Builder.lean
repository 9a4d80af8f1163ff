import LoanCheck.Proofs.Lists
import LoanCheck.Scope.Resolve

/-!
# What the builder knows

The builder is looked at through a few questions: which scopes are open, which place a
name has in a scope, which places a scope lists, where a scope ended, and how a place was
declared.  Each operation is described by the answers after it, and `Builder.Live` tells
which places can be named.
-/

namespace LoanCheck

/-- A place as it was declared, whatever it was given since. -/
def Place.declaration (place : Place) : Place := { place with holding := none }

/-- A scope without the parts it is made of. -/
def Scope.outline (scope : Scope) : Scope := { scope with children := [], items := [] }

namespace Builder

/-- The open scopes, the innermost first. -/
def openScopes (builder : Builder) : List ScopeId := builder.current :: builder.outer

def outline? (builder : Builder) (scope : ScopeId) : Option Scope :=
  (builder.scopes[scope]?).map Scope.outline

/-- Where a scope was entered. -/
def startOf? (builder : Builder) (scope : ScopeId) : Option Point :=
  (builder.outline? scope).map Scope.enter

/-- Where a scope ended, if it did. -/
def endOf? (builder : Builder) (scope : ScopeId) : Option Point :=
  (builder.outline? scope).bind Scope.exit

/-- The places declared in a scope. -/
def placesIn (builder : Builder) (scope : ScopeId) : List PlaceId :=
  (builder.outline? scope).elim [] Scope.places

def declared? (builder : Builder) (place : PlaceId) : Option Place :=
  (builder.places[place]?).map Place.declaration

/-- A place can be named: it is the one with its name in an open scope. -/
def Live (builder : Builder) (place : PlaceId) : Prop :=
  ∃ scope ∈ builder.openScopes, ∃ key, builder.inScope? key scope = some place

theorem inScope?_eq (builder : Builder) (key : Key) (scope : ScopeId) :
    builder.inScope? key scope =
      (builder.outline? scope).bind fun found => found.names.lookup key := by
  simp only [inScope?, outline?]
  cases builder.scopes[scope]? <;> rfl

theorem visible?_live {builder : Builder} {key : Key} {place : PlaceId}
    (found : builder.visible? key = some place) : builder.Live place := by
  rcases List.exists_of_findSome?_eq_some found with ⟨scope, isOpen, named⟩
  exact ⟨scope, isOpen, key, named⟩

theorem inScope?_live {builder : Builder} {key : Key} {place : PlaceId}
    (found : builder.inScope? key builder.current = some place) : builder.Live place :=
  ⟨builder.current, List.mem_cons_self, key, found⟩

@[simp]
theorem declared?_length (builder : Builder) : builder.declared? builder.places.length = none := by
  simp [declared?]

/-- Two builders that differ only in what places hold, in items and in resolutions. -/
structure Alike (first second : Builder) : Prop where
  openScopes : second.openScopes = first.openScopes
  outlines : second.outline? = first.outline?
  declarations : second.declared? = first.declared?
  scopeCount : second.scopes.length = first.scopes.length
  placeCount : second.places.length = first.places.length

namespace Alike

theorem refl (builder : Builder) : Alike builder builder := ⟨rfl, rfl, rfl, rfl, rfl⟩

theorem trans {first second third : Builder} (left : Alike first second)
    (right : Alike second third) : Alike first third :=
  ⟨right.openScopes.trans left.openScopes, right.outlines.trans left.outlines,
    right.declarations.trans left.declarations, right.scopeCount.trans left.scopeCount,
    right.placeCount.trans left.placeCount⟩

variable {first second : Builder} (alike : Alike first second)

include alike

theorem names : second.inScope? = first.inScope? := by
  funext key scope
  rw [inScope?_eq, inScope?_eq, alike.outlines]

theorem starts : second.startOf? = first.startOf? := by
  funext scope
  simp only [startOf?, alike.outlines]

theorem ends : second.endOf? = first.endOf? := by
  funext scope
  simp only [endOf?, alike.outlines]

theorem lists : second.placesIn = first.placesIn := by
  funext scope
  simp only [placesIn, alike.outlines]

theorem live_iff (place : PlaceId) : second.Live place ↔ first.Live place := by
  simp only [Live, alike.openScopes, alike.names]

end Alike

theorem alike_addItem (builder : Builder) (item : ScopeItem) :
    Alike builder (builder.addItem item) := by
  refine ⟨rfl, ?_, rfl, List.length_modify _ _ _, rfl⟩
  funext scope
  simp only [outline?, addItem, List.getElem?_modify]
  cases builder.scopes[scope]? with
  | none => rfl
  | some found => by_cases current : builder.current = scope <;> simp [current, Scope.outline]

theorem alike_record (builder : Builder) (point : Point) (scope : ScopeId) (loc : Span)
    (effect : Effect) : Alike builder (builder.record point scope loc effect) :=
  ⟨rfl, rfl, rfl, rfl, rfl⟩

/-- What is recorded is never changed, and it is what was given. -/
theorem hold_cases {builder next : Builder} {point : Point} {loc : Span} {place : PlaceId}
    {holding : Option Holding} (held : builder.hold point loc place holding = .ok next) :
    next = { builder with
      places := builder.places.modify place fun found =>
        { found with holding := holding.or found.holding } } ∧
      ∀ known given, builder.holding? place = some known → holding = some given →
        given = known := by
  cases holding with
  | none =>
      simp only [hold, Except.ok.injEq] at held
      subst held
      refine ⟨?_, by simp⟩
      simp only [Option.none_or]
      rw [show (fun found : Place => found) = id from rfl, List.modify_id]
  | some given =>
      cases found : builder.places[place]? with
      | none =>
          simp only [hold, found, Except.ok.injEq] at held
          subst held
          refine ⟨?_, by simp [holding?, found]⟩
          rw [List.modify_eq_self (List.getElem?_eq_none_iff.mp found)]
      | some old =>
          simp only [hold, found] at held
          split at held
          · cases held
          · next compatible =>
              simp only [Except.ok.injEq] at held
              subst held
              refine ⟨rfl, ?_⟩
              intro known other recorded same
              simp only [holding?, found, Option.bind_some] at recorded
              have agreed : known = given := by
                simpa [recorded] using compatible
              rw [agreed]
              exact (Option.some.inj same).symm

theorem alike_hold {builder next : Builder} {point : Point} {loc : Span} {place : PlaceId}
    {holding : Option Holding} (held : builder.hold point loc place holding = .ok next) :
    Alike builder next := by
  rw [(hold_cases held).1]
  refine ⟨rfl, rfl, ?_, rfl, List.length_modify _ _ _⟩
  funext other
  simp only [declared?, List.getElem?_modify]
  cases builder.places[other]? with
  | none => rfl
  | some found => by_cases same : place = other <;> simp [same, Place.declaration]

theorem holding?_hold {builder next : Builder} {point : Point} {loc : Span} {place : PlaceId}
    {holding : Option Holding} (held : builder.hold point loc place holding = .ok next)
    (other : PlaceId) :
    next.holding? other =
      if other = place ∧ (builder.declared? place).isSome then holding.or (builder.holding? place)
      else builder.holding? other := by
  rw [(hold_cases held).1]
  simp only [holding?, declared?, List.getElem?_modify]
  by_cases same : other = place
  · subst same
    simp only [if_true, true_and]
    cases builder.places[other]? <;> simp
  · simp [same, Ne.symm same]

section Declare

variable (builder : Builder) (point : Point) (name : Name) (key : Key) (mutable copy : Flag)
  (deferred rebinds : Bool)

theorem outline?_declare (scope : ScopeId) :
    (builder.declare point name key mutable copy deferred rebinds).1.outline? scope =
      (builder.outline? scope).map fun found =>
        if scope = builder.current then
          { found with
            places := found.places ++ [builder.places.length]
            names := (key, builder.places.length) :: found.names }
        else found := by
  simp only [declare, outline?, List.getElem?_modify]
  cases builder.scopes[scope]? with
  | none => rfl
  | some found =>
      by_cases current : scope = builder.current
      · simp [current, Scope.outline]
      · simp [current, Ne.symm current]

theorem inScope?_declare (inside : builder.current < builder.scopes.length) (other : Key)
    (scope : ScopeId) :
    (builder.declare point name key mutable copy deferred rebinds).1.inScope? other scope =
      if scope = builder.current ∧ other = key then some builder.places.length
      else builder.inScope? other scope := by
  rw [inScope?_eq, inScope?_eq, outline?_declare]
  by_cases current : scope = builder.current
  · subst current
    simp only [outline?, List.getElem?_eq_getElem inside]
    by_cases same : other = key
    · simp [same]
    · simp [same, List.lookup_cons, beq_false_of_ne same]
  · simp [current]

theorem startOf?_declare (scope : ScopeId) :
    (builder.declare point name key mutable copy deferred rebinds).1.startOf? scope =
      builder.startOf? scope := by
  simp only [startOf?, outline?_declare]
  cases builder.outline? scope with
  | none => rfl
  | some found => by_cases current : scope = builder.current <;> simp [current]

theorem endOf?_declare (scope : ScopeId) :
    (builder.declare point name key mutable copy deferred rebinds).1.endOf? scope =
      builder.endOf? scope := by
  simp only [endOf?, outline?_declare]
  cases builder.outline? scope with
  | none => rfl
  | some found => by_cases current : scope = builder.current <;> simp [current]

theorem placesIn_declare (inside : builder.current < builder.scopes.length) (scope : ScopeId) :
    (builder.declare point name key mutable copy deferred rebinds).1.placesIn scope =
      if scope = builder.current then builder.placesIn scope ++ [builder.places.length]
      else builder.placesIn scope := by
  simp only [placesIn, outline?_declare]
  by_cases current : scope = builder.current
  · subst current
    simp [outline?, List.getElem?_eq_getElem inside]
  · simp [current]

theorem declared?_declare (place : PlaceId) :
    (builder.declare point name key mutable copy deferred rebinds).1.declared? place =
      if place = builder.places.length then
        some { id := builder.places.length, name, key, scope := builder.current, point, mutable,
               copy, deferred }
      else builder.declared? place := by
  simp only [declare, declared?, getElem?_concat]
  split <;> rfl

theorem holding?_declare (place : PlaceId) :
    (builder.declare point name key mutable copy deferred rebinds).1.holding? place =
      builder.holding? place := by
  simp only [declare, holding?, getElem?_concat]
  split
  · next last => simp [last]
  · rfl

theorem length_scopes_declare :
    (builder.declare point name key mutable copy deferred rebinds).1.scopes.length =
      builder.scopes.length :=
  List.length_modify _ _ _

end Declare

theorem openScopes_enter (builder : Builder) (point : Point) (loc : Span) :
    (builder.enter point loc).openScopes = builder.scopes.length :: builder.openScopes := rfl

theorem outline?_enter (builder : Builder) (point : Point) (loc : Span) (scope : ScopeId) :
    (builder.enter point loc).outline? scope =
      if scope = builder.scopes.length then
        some { id := scope
               parent := some builder.current
               depth := ((builder.scopes[builder.current]?).elim 0 Scope.depth) + 1
               enter := point }
      else builder.outline? scope := by
  simp only [outline?, enter, addItem, record]
  rcases Nat.lt_trichotomy scope builder.scopes.length with inside | last | beyond
  · rw [List.getElem?_append_left (by simpa using inside), if_neg (Nat.ne_of_lt inside)]
    simp only [List.getElem?_modify]
    cases builder.scopes[scope]? with
    | none => rfl
    | some found => by_cases current : builder.current = scope <;> simp [current, Scope.outline]
  · subst last
    rw [List.getElem?_append_right (by simp)]
    simp [Scope.outline]
  · rw [List.getElem?_eq_none (by simpa using Nat.succ_le_of_lt beyond),
      if_neg (Nat.ne_of_gt beyond), List.getElem?_eq_none (Nat.le_of_lt beyond)]

theorem outline?_length (builder : Builder) : builder.outline? builder.scopes.length = none := by
  simp [outline?]

theorem inScope?_enter (builder : Builder) (point : Point) (loc : Span) :
    (builder.enter point loc).inScope? = builder.inScope? := by
  funext key scope
  rw [inScope?_eq, inScope?_eq, outline?_enter]
  split
  · next last => simp [last, outline?_length]
  · rfl

theorem startOf?_enter (builder : Builder) (point : Point) (loc : Span) (scope : ScopeId) :
    (builder.enter point loc).startOf? scope =
      if scope = builder.scopes.length then some point else builder.startOf? scope := by
  simp only [startOf?, outline?_enter]
  split <;> rfl

theorem endOf?_enter (builder : Builder) (point : Point) (loc : Span) :
    (builder.enter point loc).endOf? = builder.endOf? := by
  funext scope
  simp only [endOf?, outline?_enter]
  split
  · next last => simp [last, outline?_length]
  · rfl

theorem placesIn_enter (builder : Builder) (point : Point) (loc : Span) :
    (builder.enter point loc).placesIn = builder.placesIn := by
  funext scope
  simp only [placesIn, outline?_enter]
  split
  · next last => simp [last, outline?_length]
  · rfl

theorem length_scopes_enter (builder : Builder) (point : Point) (loc : Span) :
    (builder.enter point loc).scopes.length = builder.scopes.length + 1 := by
  simp [enter, addItem, record]

/-- Leaving a scope gives its end and takes it from the open ones. -/
theorem exit_cases {builder next : Builder} {point : Point} {loc : Span}
    (left : builder.exit point loc = .ok next) :
    builder.openScopes = builder.current :: next.openScopes ∧
      (∀ scope, next.outline? scope = (builder.outline? scope).map fun found =>
        if scope = builder.current then { found with exit := some point } else found) ∧
      next.places = builder.places ∧ next.scopes.length = builder.scopes.length ∧
      next.resolved = builder.resolved ++
        [{ point, scope := builder.current, loc, effect := .exit builder.current }] := by
  cases around : builder.outer with
  | nil => simp [exit, around] at left
  | cons parent outer =>
      simp only [exit, around, Except.ok.injEq] at left
      subst left
      refine ⟨?_, ?_, rfl, List.length_modify _ _ _, rfl⟩
      · simp only [openScopes, around, record]
      · intro scope
        simp only [outline?, record, List.getElem?_modify]
        cases builder.scopes[scope]? with
        | none => rfl
        | some found =>
            by_cases current : scope = builder.current
            · simp [current, Scope.outline]
            · simp [current, Ne.symm current]

section Exit

variable {builder next : Builder} {point : Point} {loc : Span}
  (left : builder.exit point loc = .ok next)

include left

theorem names_exit : next.inScope? = builder.inScope? := by
  funext key scope
  rw [inScope?_eq, inScope?_eq, (exit_cases left).2.1]
  cases builder.outline? scope with
  | none => rfl
  | some found => by_cases current : scope = builder.current <;> simp [current]

theorem startOf?_exit : next.startOf? = builder.startOf? := by
  funext scope
  simp only [startOf?, (exit_cases left).2.1]
  cases builder.outline? scope with
  | none => rfl
  | some found => by_cases current : scope = builder.current <;> simp [current]

theorem placesIn_exit : next.placesIn = builder.placesIn := by
  funext scope
  simp only [placesIn, (exit_cases left).2.1]
  cases builder.outline? scope with
  | none => rfl
  | some found => by_cases current : scope = builder.current <;> simp [current]

theorem declared?_exit : next.declared? = builder.declared? := by
  funext place
  simp only [declared?, (exit_cases left).2.2.1]

theorem endOf?_exit (inside : builder.current < builder.scopes.length) (scope : ScopeId) :
    next.endOf? scope = if scope = builder.current then some point else builder.endOf? scope := by
  simp only [endOf?, (exit_cases left).2.1]
  by_cases current : scope = builder.current
  · subst current
    simp [outline?, List.getElem?_eq_getElem inside]
  · simp [current]

end Exit

end Builder

end LoanCheck
