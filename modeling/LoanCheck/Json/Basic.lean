import LoanCheck.Number.Shortest
import LoanCheck.Text.Quoted

/-!
Values of the data format.  Objects keep their fields in order.  Programs given
in this format may use any value as a place name or as a flag, so values have a
truth of their own and a text for messages.
-/

namespace LoanCheck

inductive Json where
  | null
  | bool (value : Bool)
  | int (value : Int)
  | float (value : Binary64)
  | str (value : String)
  | arr (items : List Json)
  | obj (fields : List (String × Json))
deriving Repr, Inhabited

namespace Json

/-- Store a field; a field already present keeps its position. -/
def insertField (key : String) (value : Json) : List (String × Json) → List (String × Json)
  | [] => [(key, value)]
  | (name, old) :: rest =>
      if name = key then (key, value) :: rest
      else (name, old) :: insertField key value rest

/-- The value of a field of an object. -/
def field? (key : String) : Json → Option Json
  | .obj fields => fields.lookup key
  | _ => none

/-- Whether a value counts as set when it is used as a flag. -/
def isTrue : Json → Bool
  | .null => false
  | .bool value => value
  | .int value => value != 0
  | .float value => !value.isZero
  | .str value => !value.isEmpty
  | .arr items => !items.isEmpty
  | .obj fields => !fields.isEmpty

/-- Whether a value equals the flag that is not set. -/
def isFalseFlag : Json → Bool
  | .bool value => !value
  | .int value => value == 0
  | .float value => value.isZero
  | _ => false

/-- The name of a value's type in messages. -/
def typeName : Json → String
  | .null => "NoneType"
  | .bool _ => "bool"
  | .int _ => "int"
  | .float _ => "float"
  | .str _ => "str"
  | .arr _ => "list"
  | .obj _ => "dict"

def ofOption {Alpha : Type} (encode : Alpha → Json) : Option Alpha → Json
  | none => .null
  | some value => encode value

def nat (value : Nat) : Json := .int value

def ofNat? (value : Option Nat) : Json := ofOption nat value

def ofString? (value : Option String) : Json := ofOption .str value

/-- Doubles in messages: positional from `10 ^ -4` up to below `10 ^ 16`. -/
def literalFormat : Binary64.Format := ⟨-4, 15, 2, "inf", "nan"⟩

/-- The digits of an integer with its sign. -/
def integerChars (value : Int) : List Char :=
  if value < 0 then '-' :: Nat.toDigits 10 value.natAbs else Nat.toDigits 10 value.natAbs

/-- Put a separator between pieces. -/
def joined (separator : List Char) : List (List Char) → List Char
  | [] => []
  | [piece] => piece
  | piece :: rest => piece ++ separator ++ joined separator rest

mutual

/-- The literal form of a value in messages. -/
def literal : Json → List Char
  | .null => "None".toList
  | .bool true => "True".toList
  | .bool false => "False".toList
  | .int value => integerChars value
  | .float value => value.write literalFormat
  | .str value => Text.quotedChars value.toList
  | .arr items => '[' :: (joined [',', ' '] (literals items) ++ [']'])
  | .obj fields => '{' :: (joined [',', ' '] (fieldLiterals fields) ++ ['}'])

def literals : List Json → List (List Char)
  | [] => []
  | item :: rest => literal item :: literals rest

def fieldLiterals : List (String × Json) → List (List Char)
  | [] => []
  | (key, value) :: rest =>
      (Text.quotedChars key.toList ++ [':', ' '] ++ literal value) :: fieldLiterals rest

end

/-- The text of a value as a name: a string stands for itself. -/
def display : Json → String
  | .str value => value
  | value => String.ofList (literal value)

end Json

end LoanCheck
