import LoanCheck.Fault
import LoanCheck.Scope.Tree

/-!
Building the scope tree of a unit in one pass over its statements.

An operand names the innermost visible place of that name.  If none is visible,
a reference whose scope has ended is still found, as an escaped use.  A bind uses
the place of its name in the current scope again, unless shadowing is asked for or
the place holds the other kind of thing.  The destination of a move or borrow is
assigned if it is visible and may be, and declared otherwise.
-/

namespace LoanCheck

/-- What is wrong with the structure of a unit. -/
inductive ScopeDefect where
  | undeclared (name : Name)
  | ended (name : Name)
  | mixed (name : Name)
  | exitWithoutEnter
  | unclosed (count : Nat) (enter : Point)

namespace ScopeDefect

def kind : ScopeDefect → FaultKind
  | .undeclared _ => .malformedProgram
  | .ended _ => .malformedProgram
  | .mixed _ => .malformedProgram
  | .exitWithoutEnter => .unbalancedScope
  | .unclosed _ _ => .unbalancedScope

def message : ScopeDefect → String
  | .undeclared name => "place '" ++ name.display ++ "' is not declared"
  | .ended name => "place '" ++ name.display ++ "' used after its scope ended"
  | .mixed name => "place '" ++ name.display ++ "' holds both owned values and references"
  | .exitWithoutEnter => "scope exit without a matching scope enter"
  | .unclosed count enter =>
      s!"{count} scope(s) still open at end of unit (innermost entered at point {enter})"

def place : ScopeDefect → Json
  | .undeclared name => name
  | .ended name => name
  | .mixed name => name
  | .exitWithoutEnter => .null
  | .unclosed _ _ => .null

end ScopeDefect

/-- Why a unit has no scope tree. -/
inductive ResolveError where
  | defect (defect : ScopeDefect) (point : Point) (loc : Option Span)
  | name (error : NameError)

/-- The fault of a defect in a unit. -/
def ScopeDefect.fault (defect : ScopeDefect) (unit : String) (point : Point)
    (loc : Option Span) : Fault :=
  { kind := defect.kind
    message := defect.message
    point := some point
    place := defect.place
    unit := some unit
    span := loc }

/-- The scopes and places found so far. -/
structure Builder where
  scopes : List Scope := [{ id := 0, parent := none, depth := 0, enter := 0 }]
  places : List Place := []
  resolved : List Resolution := []
  /-- The innermost open scope. -/
  current : ScopeId := 0
  /-- The open scopes around it, innermost first. -/
  outer : List ScopeId := []
  /-- Names of ended scopes, the latest first. -/
  closed : List (Key × PlaceId) := []

namespace Builder

/-- The place of a name in one scope. -/
def inScope? (builder : Builder) (key : Key) (scope : ScopeId) : Option PlaceId :=
  (builder.scopes[scope]?).bind fun scope => scope.names.lookup key

/-- The innermost visible place of a name. -/
def visible? (builder : Builder) (key : Key) : Option PlaceId :=
  (builder.current :: builder.outer).findSome? (builder.inScope? key)

/-- What a place holds, if that is known. -/
def holding? (builder : Builder) (place : PlaceId) : Option Holding :=
  (builder.places[place]?).bind Place.holding

/-- Whether a visible place may be assigned. -/
def isAssignable (builder : Builder) (place : PlaceId) : Bool :=
  match builder.places[place]? with
  | some place => place.mutable.isTrue || place.deferred
  | none => false

def keyOf (name : Name) : Except ResolveError Key :=
  match name.key with
  | .ok key => .ok key
  | .error error => .error (.name error)

/-- The place that an operand uses. -/
def use (builder : Builder) (point : Point) (loc : Span) (name : Name) :
    Except ResolveError Use := do
  let key ← keyOf name
  match builder.visible? key with
  | some place => return ⟨place, false⟩
  | none =>
      match builder.closed.lookup key with
      | some place =>
          if builder.holding? place = some .reference then return ⟨place, true⟩
          else .error (.defect (.ended name) point (some loc))
      | none => .error (.defect (.undeclared name) point (some loc))

/-- Declare a new place in the current scope. -/
def declare (builder : Builder) (point : Point) (name : Name) (key : Key)
    (mutable copy : Flag) (deferred rebinds : Bool) : Builder × Target :=
  let id := builder.places.length
  let shadowed := builder.inScope? key builder.current
  let place : Place :=
    { id, name, key, scope := builder.current, point, mutable, copy, deferred }
  let scopes := builder.scopes.modify builder.current fun scope =>
    { scope with places := scope.places ++ [id], names := (key, id) :: scope.names }
  ({ builder with scopes, places := builder.places ++ [place] }, .fresh id shadowed rebinds)

/-- Record what a place is given.  It must not change between values and references. -/
def hold (builder : Builder) (point : Point) (loc : Span) (place : PlaceId)
    (holding : Option Holding) : Except ResolveError Builder :=
  match holding, builder.places[place]? with
  | some holding, some found =>
      if found.holding.any (· ≠ holding) then
        .error (.defect (.mixed found.name) point (some loc))
      else
        .ok { builder with
          places := builder.places.modify place fun found =>
            { found with holding := some holding } }
  | _, _ => .ok builder

/-- Whether a place is known to hold the other kind of thing. -/
def changesKind (builder : Builder) (place : PlaceId) (holding : Option Holding) : Bool :=
  match holding, builder.holding? place with
  | some new, some old => new ≠ old
  | _, _ => false

/-- The destination of a move or borrow. -/
def assign (builder : Builder) (point : Point) (name : Name) :
    Except ResolveError (Builder × Target) := do
  let key ← keyOf name
  match builder.visible? key with
  | some place =>
      if builder.isAssignable place then return (builder, .existing place)
      else return builder.declare point name key (.bool false) (.bool false) false false
  | none => return builder.declare point name key (.bool false) (.bool false) false false

/-- The place that a bind gives a value. -/
def bindTarget (builder : Builder) (point : Point) (name : Name) (mutable shadow copy : Flag)
    (holding : Option Holding) : Except ResolveError (Builder × Target) := do
  let key ← keyOf name
  match builder.inScope? key builder.current with
  | some place =>
      if !shadow.isTrue && !builder.changesKind place holding then
        return (builder, .existing place)
      else return builder.declare point name key mutable copy false (!shadow.isTrue)
  | none => return builder.declare point name key mutable copy false false

/-- Resolve a statement that is no scope marker. -/
def resolve (builder : Builder) (point : Point) (loc : Span) :
    Action → Except ResolveError (Builder × Effect)
  | .bind name mutable source shadow copy => do
      let source ← source.mapM (builder.use point loc)
      let holding :=
        match source with
        | some use => builder.holding? use.place
        | none => some .value
      let (builder, target) ← builder.bindTarget point name mutable shadow copy holding
      let builder ← builder.hold point loc target.place holding
      return (builder, .bind target source mutable copy)
  | .declare name mutable copy => do
      let key ← keyOf name
      let (builder, target) := builder.declare point name key mutable copy true false
      return (builder, .declare target)
  | .move dest src => do
      let source ← builder.use point loc src
      let (builder, target) ← builder.assign point dest
      let builder ← builder.hold point loc target.place (builder.holding? source.place)
      return (builder, .move target source)
  | .borrow kind dest referent => do
      let source ← builder.use point loc referent
      let (builder, target) ← builder.assign point dest
      let builder ← builder.hold point loc target.place (some .reference)
      return (builder, .borrow kind target source)
  | .write place => do
      let source ← builder.use point loc place
      return (builder, .write source)
  | .read place => do
      let source ← builder.use point loc place
      return (builder, .read source)
  | .consume place => do
      let source ← builder.use point loc place
      return (builder, .consume source)
  | .enter => .ok (builder, .enter)
  | .exit => .ok (builder, .exit builder.current)

/-- Record what a statement was resolved to. -/
def record (builder : Builder) (point : Point) (scope : ScopeId) (loc : Span)
    (effect : Effect) : Builder :=
  { builder with resolved := builder.resolved ++ [{ point, scope, loc, effect }] }

/-- Add an item to the current scope. -/
def addItem (builder : Builder) (item : ScopeItem) : Builder :=
  { builder with
    scopes := builder.scopes.modify builder.current fun scope =>
      { scope with items := scope.items ++ [item] } }

/-- Open a scope inside the current one. -/
def enter (builder : Builder) (point : Point) (loc : Span) : Builder :=
  let id := builder.scopes.length
  let depth := ((builder.scopes[builder.current]?).elim 0 Scope.depth) + 1
  let outside := builder.current
  let builder := builder.addItem (.scope id)
  let scopes := builder.scopes.modify outside fun scope =>
    { scope with children := scope.children ++ [id] }
  let scope : Scope := { id, parent := some outside, depth, enter := point }
  { builder with
    scopes := scopes ++ [scope], current := id, outer := outside :: builder.outer }.record
      point outside loc .enter

/-- The names of a scope's places, as they are found after it has ended. -/
def endedNames (builder : Builder) (scope : ScopeId) : List (Key × PlaceId) :=
  match builder.scopes[scope]? with
  | some scope =>
      scope.places.filterMap fun id => (builder.places[id]?).map fun place => (place.key, id)
  | none => []

/-- Close the current scope. -/
def exit (builder : Builder) (point : Point) (loc : Span) : Except ResolveError Builder :=
  match builder.outer with
  | [] => .error (.defect .exitWithoutEnter point (some loc))
  | around :: outer =>
      let closing := builder.current
      .ok ({ builder with
        scopes := builder.scopes.modify closing fun scope => { scope with exit := some point }
        current := around
        outer
        closed := (builder.endedNames closing).reverse ++ builder.closed }.record
          point closing loc (.exit closing))

/-- Take the statement at a point. -/
def step (builder : Builder) (point : Point) (statement : Statement) :
    Except ResolveError Builder :=
  match statement.action with
  | .enter => .ok (builder.enter point statement.loc)
  | .exit => builder.exit point statement.loc
  | action => do
      let builder := builder.addItem (.point point)
      let (builder, effect) ← builder.resolve point statement.loc action
      return builder.record point builder.current statement.loc effect

/-- Take statements, the first of which is at the given point. -/
def run (builder : Builder) (point : Point) : List Statement → Except ResolveError Builder
  | [] => .ok builder
  | statement :: rest => do
      let builder ← builder.step point statement
      builder.run (point + 1) rest

/-- Close the outermost scope at the end of the unit; no other may be open. -/
def finish (builder : Builder) (unit : CodeUnit) : Except ResolveError ScopeTree :=
  match builder.outer with
  | [] =>
      .ok {
        unit
        scopes := builder.scopes.modify ScopeTree.rootId fun scope =>
          { scope with exit := some unit.endPoint }
        places := builder.places
        resolved := builder.resolved }
  | outer =>
      let enter := (builder.scopes[builder.current]?).elim 0 Scope.enter
      .error (.defect (.unclosed outer.length enter) unit.endPoint none)

end Builder

/-- The scope tree of a unit. -/
def CodeUnit.scopeTree (unit : CodeUnit) : Except ResolveError ScopeTree := do
  let builder ← Builder.run {} 0 unit.statements
  builder.finish unit

end LoanCheck
