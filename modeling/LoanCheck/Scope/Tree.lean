import LoanCheck.Program.Basic

/-!
The scopes of a unit and the places declared in them.

A place is a storage location: every declaration makes a new one, so shadowing a
name gives it another place.  Each statement is resolved to places; later stages
never look at names again, except to show them.
-/

namespace LoanCheck

abbrev PlaceId := Nat

abbrev ScopeId := Nat

abbrev Point := Nat

/-- What a place holds, once it has been given something. -/
inductive Holding where
  | value
  | reference
deriving DecidableEq, Repr

structure Place where
  id : PlaceId
  name : Name
  key : Key
  scope : ScopeId
  /-- The point of its declaration. -/
  point : Point
  mutable : Flag
  copy : Flag
  /-- Declared without a value. -/
  deferred : Bool
  holding : Option Holding := none
deriving Repr

/-- A part of a scope: a statement or an inner scope. -/
inductive ScopeItem where
  | point (point : Point)
  | scope (scope : ScopeId)
deriving DecidableEq, Repr

structure Scope where
  id : ScopeId
  parent : Option ScopeId
  depth : Nat
  enter : Point
  exit : Option Point := none
  children : List ScopeId := []
  items : List ScopeItem := []
  /-- Places declared directly in the scope, in order. -/
  places : List PlaceId := []
  /-- The names declared so far, the latest first. -/
  names : List (Key × PlaceId) := []
deriving Repr

/-- An operand: the place it names, and whether the scope of that place has ended. -/
structure Use where
  place : PlaceId
  escaped : Bool
deriving DecidableEq, Repr

/-- The place that a statement gives a value or declares. -/
inductive Target where
  /-- A place that is assigned or bound again. -/
  | existing (place : PlaceId)
  /-- A new place.  `shadowed` had its name in the same scope; `rebinds` tells that
  no shadowing was asked for. -/
  | fresh (place : PlaceId) (shadowed : Option PlaceId) (rebinds : Bool)
deriving DecidableEq, Repr

namespace Target

def place : Target → PlaceId
  | .existing place => place
  | .fresh place _ _ => place

def declares : Target → Bool
  | .existing _ => false
  | .fresh _ _ _ => true

def shadowed? : Target → Option PlaceId
  | .existing _ => none
  | .fresh _ shadowed _ => shadowed

def rebinds : Target → Bool
  | .existing _ => false
  | .fresh _ _ rebinds => rebinds

end Target

/-- A statement with its names resolved. -/
inductive Effect where
  | enter
  | exit (closes : ScopeId)
  | bind (target : Target) (source : Option Use) (mutable copy : Flag)
  | declare (target : Target)
  | move (target : Target) (source : Use)
  | borrow (kind : BorrowKind) (target : Target) (source : Use)
  | write (source : Use)
  | read (source : Use)
  | consume (source : Use)
deriving Repr

namespace Effect

def target? : Effect → Option Target
  | .bind target _ _ _ => some target
  | .declare target => some target
  | .move target _ => some target
  | .borrow _ target _ => some target
  | _ => none

def source? : Effect → Option Use
  | .bind _ source _ _ => source
  | .move _ source => some source
  | .borrow _ _ source => some source
  | .write source => some source
  | .read source => some source
  | .consume source => some source
  | _ => none

def closes? : Effect → Option ScopeId
  | .exit closes => some closes
  | _ => none

end Effect

/-- What a statement was resolved to, with its point and scope. -/
structure Resolution where
  point : Point
  /-- The scope it stands in; for the end of a scope, that scope. -/
  scope : ScopeId
  loc : Span
  effect : Effect
deriving Repr

structure ScopeTree where
  unit : CodeUnit
  scopes : List Scope
  places : List Place
  resolved : List Resolution

namespace ScopeTree

def rootId : ScopeId := 0

/-- The name of a place. -/
def name (tree : ScopeTree) (place : PlaceId) : Name :=
  match tree.places[place]? with
  | some place => place.name
  | none => .null

/-- A place's name between quotes, as messages and notes show it. -/
def named (tree : ScopeTree) (place : PlaceId) : String :=
  "'" ++ (tree.name place).display ++ "'"

def scopeOf (tree : ScopeTree) (place : PlaceId) : ScopeId :=
  match tree.places[place]? with
  | some place => place.scope
  | none => rootId

def declaredAt (tree : ScopeTree) (place : PlaceId) : Point :=
  match tree.places[place]? with
  | some place => place.point
  | none => 0

def holdsReference (tree : ScopeTree) (place : PlaceId) : Bool :=
  match tree.places[place]? with
  | some place => place.holding == some .reference
  | none => false

def placesOf (tree : ScopeTree) (scope : ScopeId) : List PlaceId :=
  match tree.scopes[scope]? with
  | some scope => scope.places
  | none => []

/-- Where a scope ends; the outermost one ends with the unit. -/
def exitPoint (tree : ScopeTree) (scope : ScopeId) : Point :=
  ((tree.scopes[scope]?).bind Scope.exit).getD tree.unit.endPoint

def parent? (tree : ScopeTree) (scope : ScopeId) : Option ScopeId :=
  (tree.scopes[scope]?).bind Scope.parent

/-- A scope and those around it, innermost first, at most `bound` of them. -/
def chain (tree : ScopeTree) : Nat → ScopeId → List ScopeId
  | 0, _ => []
  | bound + 1, scope =>
      scope :: match tree.parent? scope with
        | some parent => tree.chain bound parent
        | none => []

/-- Whether a scope is another one or lies around it.  A parent is older than its
children, so a chain is no longer than the identifier it starts from. -/
def isAncestor (tree : ScopeTree) (outer inner : ScopeId) : Bool :=
  (tree.chain (inner + 1) inner).contains outer

/-- Whether a scope lies around another one, asked by number.  The inner scope is
looked at only if it is not the outer one, and then it has to exist. -/
def ancestor? (tree : ScopeTree) (outer inner : ScopeId) : Option Bool :=
  if outer = inner ∨ inner < tree.scopes.length then some (tree.isAncestor outer inner)
  else none

end ScopeTree

end LoanCheck
