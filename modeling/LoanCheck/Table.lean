/-!
Finite tables indexed by numbers, in the order in which entries were first made.
-/

namespace LoanCheck

abbrev Table (Alpha : Type) := List (Nat × Alpha)

namespace Table

variable {Alpha : Type}

def get? : Table Alpha → Nat → Option Alpha
  | [], _ => none
  | (other, value) :: rest, index => if index = other then some value else get? rest index

/-- Store an entry; one already present keeps its position. -/
def set : Table Alpha → Nat → Alpha → Table Alpha
  | [], index, value => [(index, value)]
  | (other, old) :: rest, index, value =>
      if other = index then (index, value) :: rest else (other, old) :: set rest index value

@[simp]
theorem get?_set_self (table : Table Alpha) (index : Nat) (value : Alpha) :
    get? (set table index value) index = some value := by
  induction table with
  | nil => simp [set, get?]
  | cons entry rest inductionHypothesis =>
      by_cases same : entry.1 = index
      · simp [set, get?, same]
      · simp [set, get?, same, Ne.symm same, inductionHypothesis]

@[simp]
theorem get?_set_of_ne (table : Table Alpha) {index other : Nat} (value : Alpha)
    (different : other ≠ index) :
    get? (set table index value) other = get? table other := by
  induction table with
  | nil => simp [set, get?, different]
  | cons entry rest inductionHypothesis =>
      by_cases same : entry.1 = index
      · simp [set, get?, same, different]
      · simp [set, get?, same, inductionHypothesis]

theorem get?_set (table : Table Alpha) (index other : Nat) (value : Alpha) :
    get? (set table index value) other = if other = index then some value else get? table other := by
  split
  · next same =>
      rw [same]
      exact get?_set_self table index value
  · next different => exact get?_set_of_ne table value different

end Table

end LoanCheck
