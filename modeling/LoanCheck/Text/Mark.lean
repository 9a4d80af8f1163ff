/-!
Places in a text by line and column, both counted from one.  Only a newline
ends a line.
-/

namespace LoanCheck.Text

structure Mark where
  line : Nat
  column : Nat
deriving DecidableEq, Repr, Inhabited

namespace Mark

/-- Where a text begins. -/
def first : Mark := ⟨1, 1⟩

/-- The place just after a character. -/
def past (mark : Mark) (c : Char) : Mark :=
  if c = '\n' then ⟨mark.line + 1, 1⟩ else ⟨mark.line, mark.column + 1⟩

/-- The place just after a piece of text. -/
def pastAll (mark : Mark) (text : List Char) : Mark :=
  text.foldl past mark

@[simp]
theorem pastAll_nil (mark : Mark) : mark.pastAll [] = mark := rfl

@[simp]
theorem pastAll_cons (mark : Mark) (c : Char) (text : List Char) :
    mark.pastAll (c :: text) = (mark.past c).pastAll text := rfl

theorem pastAll_append (mark : Mark) (left right : List Char) :
    mark.pastAll (left ++ right) = (mark.pastAll left).pastAll right := by
  simp [pastAll]

end Mark

end LoanCheck.Text
