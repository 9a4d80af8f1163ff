import LoanCheck.Name
import LoanCheck.Span

/-!
Programs under analysis.  A unit is a flat list of statements; nesting is given
by markers, so each statement has one program point, its index, and the end of
the unit is the point after the last one.
-/

namespace LoanCheck

inductive BorrowKind where
  | shared
  | exclusive
deriving DecidableEq, Repr, Inhabited

def BorrowKind.text : BorrowKind → String
  | .shared => "shared"
  | .exclusive => "exclusive"

/-- What a statement does. -/
inductive Action where
  /-- Declare a place and give it a fresh value, or the value of `source`. -/
  | bind (place : Name) (mutable : Flag) (source : Option Name) (shadow copy : Flag)
  /-- Declare a place without a value. -/
  | declare (place : Name) (mutable copy : Flag)
  /-- Hand the value of one place to another. -/
  | move (dest src : Name)
  /-- Store a reference to `referent` in `dest`. -/
  | borrow (kind : BorrowKind) (dest referent : Name)
  /-- Change a place, or what it refers to. -/
  | write (place : Name)
  | read (place : Name)
  /-- Hand the value of a place to a callee. -/
  | consume (place : Name)
  | enter
  | exit
deriving Repr

/-- The name that a statement uses: reads, moves from or borrows. -/
def Action.operand? : Action → Option Name
  | .bind _ _ source _ _ => source
  | .declare _ _ _ => none
  | .move _ src => some src
  | .borrow _ _ referent => some referent
  | .write place => some place
  | .read place => some place
  | .consume place => some place
  | .enter => none
  | .exit => none

structure Statement where
  action : Action
  loc : Span := {}
deriving Repr

/-- A piece of code that is analysed on its own. -/
structure CodeUnit where
  name : String
  statements : List Statement
deriving Repr

/-- The point after the last statement. -/
def CodeUnit.endPoint (unit : CodeUnit) : Nat := unit.statements.length

structure Program where
  units : List CodeUnit
deriving Repr

/-- The first unit with a name. -/
def Program.unit? (program : Program) (name : String) : Option CodeUnit :=
  program.units.find? fun unit => unit.name == name

end LoanCheck
