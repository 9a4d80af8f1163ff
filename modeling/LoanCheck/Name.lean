import LoanCheck.Json.Basic

/-!
Names of places.  Any plain value can be a name, and two names are the same when
their values are: a number is the same name however it is written, and so is a
truth value as the number one or zero.
-/

namespace LoanCheck

/-- The name of a place as it was given. -/
abbrev Name := Json

/-- A flag as it was given; `Json.isTrue` tells whether it is set. -/
abbrev Flag := Json

/-- What makes two names the same. -/
inductive Key where
  | null
  | number (value : Rat)
  | infinite (negative : Bool)
  | notANumber
  | text (value : String)
deriving DecidableEq, Repr

/-- A list or an object was used as a name. -/
inductive NameError where
  | list
  | object
deriving DecidableEq, Repr

def NameError.message : NameError → String
  | .list => "unhashable type: 'list'"
  | .object => "unhashable type: 'dict'"

/-- The key of a name. -/
def Json.key : Name → Except NameError Key
  | .null => .ok .null
  | .bool value => .ok (.number (if value then 1 else 0))
  | .int value => .ok (.number value)
  | .float (.infinite negative) => .ok (.infinite negative)
  | .float value =>
      match value.toRat? with
      | some exact => .ok (.number exact)
      | none => .ok .notANumber
  | .str value => .ok (.text value)
  | .arr _ => .error .list
  | .obj _ => .error .object

end LoanCheck
