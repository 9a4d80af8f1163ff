import LoanCheck.Name
import LoanCheck.Span

/-!
Diagnostics: violations of the ownership rules, each anchored at a program point.
A unit is accepted exactly when it has none.
-/

namespace LoanCheck

inductive DiagnosticKind where
  | duplicateBinding
  | useAfterMove
  | useOfUninitialized
  | moveWhileBorrowed
  | conflictingBorrow
  | danglingReference
  | mutabilityViolation
  | writeWhileBorrowed
deriving DecidableEq, Repr

namespace DiagnosticKind

/-- The stable code of a kind. -/
def code : DiagnosticKind → String
  | .duplicateBinding => "E-DUPLICATE-BINDING"
  | .useAfterMove => "E-USE-AFTER-MOVE"
  | .useOfUninitialized => "E-USE-OF-UNINITIALIZED"
  | .moveWhileBorrowed => "E-MOVE-WHILE-BORROWED"
  | .conflictingBorrow => "E-CONFLICTING-BORROW"
  | .danglingReference => "E-DANGLING-REFERENCE"
  | .mutabilityViolation => "E-MUTABILITY-VIOLATION"
  | .writeWhileBorrowed => "E-WRITE-WHILE-BORROWED"

def all : List DiagnosticKind :=
  [.duplicateBinding, .useAfterMove, .useOfUninitialized, .moveWhileBorrowed, .conflictingBorrow,
    .danglingReference, .mutabilityViolation, .writeWhileBorrowed]

/-- The kind with a given code. -/
def ofCode? (code : String) : Option DiagnosticKind :=
  all.find? fun kind => kind.code == code

end DiagnosticKind

structure Diagnostic where
  kind : DiagnosticKind
  message : String
  point : Int
  place : Name := .null
  borrow : Option Nat := none
  span : Span := {}
  notes : List String := []
deriving Repr

namespace Diagnostic

def code (diagnostic : Diagnostic) : String := diagnostic.kind.code

/-- The fields of a diagnostic in reports. -/
def fields (diagnostic : Diagnostic) : List (String × Json) :=
  [("phase", .str "borrowcheck"),
    ("code", .str diagnostic.code),
    ("message", .str diagnostic.message),
    ("severity", .str "error"),
    ("point", .int diagnostic.point),
    ("place", diagnostic.place),
    ("borrow", .ofNat? diagnostic.borrow),
    ("file", .ofString? diagnostic.span.file),
    ("line", .ofOption .int diagnostic.span.line),
    ("column", .ofOption .int diagnostic.span.column),
    ("notes", .arr (diagnostic.notes.map .str))]

/-- A diagnostic for a reader, each note on a line of its own. -/
def human (diagnostic : Diagnostic) : String :=
  let place := diagnostic.span.text
  let code := diagnostic.code
  let point := Span.number diagnostic.point
  let notes := String.join (diagnostic.notes.map ("\n  note: " ++ ·))
  s!"{place}: error[{code}] at point {point}: {diagnostic.message}{notes}"

end Diagnostic

/-- What a violation of the rules is about, by the names of the places. -/
inductive Violation where
  | alreadyBound (place : Name)
  | movedOut (action : String) (place : Name)
  | notInitialized (action : String) (place : Name)
  | movedWhileBorrowed (place : Name)
  | assignedWhileBorrowed (place : Name)
  | writtenWhileBorrowed (place : Name)
  | writtenThroughWhileBorrowed (place : Name)
  | assignedTwice (place : Name)
  | exclusiveOfImmutable (place : Name)
  | writtenImmutable (place : Name)
  | writtenThroughShared (place : Name)
  | writtenThroughContested (place referent : Name)
  | sharedWhileExclusive (referent : Name)
  | exclusiveWhileBorrowed (referent : Name)
  | outlivedReferent (referent holder : Name)
  | usedAfterScope (place : Name)
deriving Repr

namespace Violation

def kind : Violation → DiagnosticKind
  | .alreadyBound _ => .duplicateBinding
  | .movedOut _ _ => .useAfterMove
  | .notInitialized _ _ => .useOfUninitialized
  | .movedWhileBorrowed _ => .moveWhileBorrowed
  | .assignedWhileBorrowed _ => .writeWhileBorrowed
  | .writtenWhileBorrowed _ => .writeWhileBorrowed
  | .writtenThroughWhileBorrowed _ => .writeWhileBorrowed
  | .assignedTwice _ => .mutabilityViolation
  | .exclusiveOfImmutable _ => .mutabilityViolation
  | .writtenImmutable _ => .mutabilityViolation
  | .writtenThroughShared _ => .mutabilityViolation
  | .writtenThroughContested _ _ => .conflictingBorrow
  | .sharedWhileExclusive _ => .conflictingBorrow
  | .exclusiveWhileBorrowed _ => .conflictingBorrow
  | .outlivedReferent _ _ => .danglingReference
  | .usedAfterScope _ => .danglingReference

/-- A name between the quotes that messages use. -/
def named (name : Name) : String := "'" ++ name.display ++ "'"

def message : Violation → String
  | .alreadyBound place => named place ++ " is already bound in this scope"
  | .movedOut action place => "cannot " ++ action ++ " " ++ named place ++ ": value was moved out"
  | .notInitialized action place =>
      "cannot " ++ action ++ " " ++ named place ++ ": place is not initialized"
  | .movedWhileBorrowed place => "cannot move out of " ++ named place ++ " while it is borrowed"
  | .assignedWhileBorrowed place => "cannot assign to " ++ named place ++ " while it is borrowed"
  | .writtenWhileBorrowed place => "cannot write to " ++ named place ++ " while it is borrowed"
  | .writtenThroughWhileBorrowed place =>
      "cannot write through " ++ named place ++ " while it is borrowed"
  | .assignedTwice place => "cannot assign twice to immutable place " ++ named place
  | .exclusiveOfImmutable place =>
      "cannot borrow " ++ named place ++ " as exclusive: it is not declared mutable"
  | .writtenImmutable place =>
      "cannot write to " ++ named place ++ ": it is not declared mutable"
  | .writtenThroughShared place =>
      "cannot write through " ++ named place ++ ": it is a shared borrow"
  | .writtenThroughContested place referent =>
      "cannot write through " ++ named place ++ ": " ++ named referent ++
        " has other active borrows"
  | .sharedWhileExclusive referent =>
      "cannot borrow " ++ named referent ++ " as shared while it is exclusively borrowed"
  | .exclusiveWhileBorrowed referent =>
      "cannot borrow " ++ named referent ++ " as exclusive while it is already borrowed"
  | .outlivedReferent referent holder =>
      named referent ++ " does not live long enough: still borrowed by " ++ named holder
  | .usedAfterScope place =>
      "reference " ++ named place ++ " used after the scope it was declared in ended"

end Violation

end LoanCheck
