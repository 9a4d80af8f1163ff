import LoanCheck.Json.Basic
import LoanCheck.Text.Mark

/-!
Where a statement stands in its source.  Every part may be unknown; statements
given as data have no place at all.
-/

namespace LoanCheck

structure Span where
  file : Option String := none
  line : Option Int := none
  column : Option Int := none
  endLine : Option Int := none
  endColumn : Option Int := none
deriving DecidableEq, Repr, Inhabited

/-- The lines and columns that a piece of text covers, as far as they are known. -/
structure Region where
  isEmpty : Bool := false
  line : Option Int := none
  column : Option Int := none
  endLine : Option Int := none
  endColumn : Option Int := none
deriving DecidableEq, Repr

namespace Span

/-- The place of a region of a file; an empty region is nowhere in it. -/
def ofRegion (file : Option String) (region : Region) : Span :=
  if region.isEmpty then { file }
  else
    { file
      line := region.line
      column := region.column
      endLine := region.endLine
      endColumn := region.endColumn }

/-- A place is known once its line is. -/
def isKnown (span : Span) : Bool := span.line.isSome

/-- The source from one mark to another. -/
def between (file : Option String) (start stop : Text.Mark) : Span :=
  { file
    line := some start.line
    column := some start.column
    endLine := some stop.line
    endColumn := some stop.column }

/-- A single place in the source. -/
def atMark (file : Option String) (mark : Text.Mark) : Span :=
  { file, line := some mark.line, column := some mark.column }

def number (value : Int) : String :=
  String.ofList (Json.integerChars value)

/-- The file, line and column in messages. -/
def text (span : Span) : String :=
  let file :=
    match span.file with
    | none => "<unit>"
    | some file => if file.isEmpty then "<unit>" else file
  match span.line, span.column with
  | none, _ => file ++ ":?:?"
  | some line, none => file ++ ":" ++ number line ++ ":?"
  | some line, some column => file ++ ":" ++ number line ++ ":" ++ number column

end Span

end LoanCheck
