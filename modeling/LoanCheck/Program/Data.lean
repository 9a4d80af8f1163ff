import LoanCheck.Fault
import LoanCheck.Json.Reader
import LoanCheck.Json.Writer
import LoanCheck.Program.Basic

/-!
Programs as data.  A statement is an object with an `op` and its fields; a unit
has a name and statements; a program is a list of units, an object that holds
one, or a single unit.  Place names and flags may be any value.
-/

namespace LoanCheck

/-- Why data is no program.  A statement is named by its point in its unit. -/
inductive DataError where
  | notJson (error : Json.ReadError)
  | notProgram
  | notUnit
  | statementsNotList (unit : String)
  | notStatement (point : Nat) (given : Json)
  | unknownOp (point : Nat) (given : Json)
  | unexpectedField (point : Nat) (field op : String)
  | missingFields (point : Nat) (op constructor : String) (missing : List String)

namespace DataError

/-- Missing fields as messages list them. -/
def missingText (missing : List String) : String :=
  let count := missing.length
  let noun := if count = 1 then "argument" else "arguments"
  let names := " and ".intercalate (missing.map fun name => "'" ++ name ++ "'")
  s!"missing {count} required positional {noun}: {names}"

def message : DataError → String
  | .notJson error => "invalid JSON: " ++ error.message
  | .notProgram => "expected a unit, a list of units, or \x7b\"units\": [...]\x7d"
  | .notUnit => "unit must be an object with a string 'name'"
  | .statementsNotList _ => "'statements' must be a list"
  | .notStatement _ given => "statement must be an object, got " ++ given.typeName
  | .unknownOp _ given => "unknown statement op " ++ String.ofList given.literal
  | .unexpectedField _ field op => s!"unexpected field '{field}' for '{op}'"
  | .missingFields _ op constructor missing =>
      let what := missingText missing
      s!"bad '{op}' statement: {constructor}.__init__() {what}"

def point? : DataError → Option Nat
  | .notStatement point _ => some point
  | .unknownOp point _ => some point
  | .unexpectedField point _ _ => some point
  | .missingFields point _ _ _ => some point
  | _ => none

def unit? : DataError → Option String
  | .statementsNotList unit => some unit
  | _ => none

/-- The limit of the data format that was passed, if that is why. -/
def limit? : DataError → Option Json.Limit
  | .notJson error => error.limit?
  | _ => none

/-- Data that is not read, however well formed it is, is no fault of the program. -/
def fault (error : DataError) : Except Json.Limit Fault :=
  match error.limit? with
  | some limit => .error limit
  | none =>
      .ok {
        kind := .malformedProgram
        message := error.message
        point := error.point?.map fun point => (point : Int)
        unit := error.unit? }

end DataError

/-- The fields of one kind of statement. -/
structure StatementForm where
  op : String
  /-- The word for the statement in messages about missing fields. -/
  constructor : String
  required : List String
  optional : List String

namespace StatementForm

def all : List StatementForm :=
  [⟨"bind", "Bind", ["place"], ["mutable", "move_from", "shadow", "copy"]⟩,
    ⟨"declare", "Declare", ["place"], ["mutable", "copy"]⟩,
    ⟨"move", "Move", ["dest", "src"], []⟩,
    ⟨"borrow_shared", "BorrowShared", ["dest", "ref"], []⟩,
    ⟨"borrow_exclusive", "BorrowExclusive", ["dest", "ref"], []⟩,
    ⟨"write", "WriteThrough", ["place"], []⟩,
    ⟨"read", "Read", ["place"], []⟩,
    ⟨"consume", "Consume", ["place"], []⟩,
    ⟨"enter", "ScopeEnter", [], []⟩,
    ⟨"exit", "ScopeExit", [], []⟩]

/-- The form that an `op` value selects. -/
def ofOp? : Json → Option StatementForm
  | .str op => all.find? fun form => form.op == op
  | _ => none

def allows (form : StatementForm) (field : String) : Bool :=
  form.required.contains field || form.optional.contains field

end StatementForm

namespace Action

/-- A flag that was not given. -/
def unset : Flag := .bool false

/-- The action of an op, given its fields. -/
def ofFields (op : String) (fields : List (String × Json)) : Action :=
  let value (key : String) : Json := (fields.lookup key).getD .null
  let flag (key : String) : Flag := (fields.lookup key).getD unset
  match op with
  | "bind" =>
      let source :=
        match value "move_from" with
        | .null => none
        | name => some name
      .bind (value "place") (flag "mutable") source (flag "shadow") (flag "copy")
  | "declare" => .declare (value "place") (flag "mutable") (flag "copy")
  | "move" => .move (value "dest") (value "src")
  | "borrow_shared" => .borrow .shared (value "dest") (value "ref")
  | "borrow_exclusive" => .borrow .exclusive (value "dest") (value "ref")
  | "write" => .write (value "place")
  | "read" => .read (value "place")
  | "consume" => .consume (value "place")
  | "enter" => .enter
  | _ => .exit

/-- Read the statement at a point. -/
def ofJson (point : Nat) (data : Json) : Except DataError Action :=
  match data with
  | .obj fields =>
      let op := (fields.lookup "op").getD .null
      match StatementForm.ofOp? op with
      | none => .error (.unknownOp point op)
      | some form =>
          let given := fields.filter fun (key, _) => key != "op"
          match given.find? fun (key, _) => !form.allows key with
          | some (key, _) => .error (.unexpectedField point key form.op)
          | none =>
              match form.required.filter fun key => (given.lookup key).isNone with
              | [] => .ok (ofFields form.op given)
              | missing => .error (.missingFields point form.op form.constructor missing)
  | data => .error (.notStatement point data)

/-- A flag field, left out if it is not set. -/
def flagField (key : String) (flag : Flag) : List (String × Json) :=
  if flag.isFalseFlag then [] else [(key, flag)]

/-- The fields of an action; those that are not set are left out. -/
def fields : Action → List (String × Json)
  | .bind place mutable source shadow copy =>
      [("op", .str "bind"), ("place", place)] ++ flagField "mutable" mutable ++
        (match source with
          | some name => [("move_from", name)]
          | none => []) ++
        flagField "shadow" shadow ++ flagField "copy" copy
  | .declare place mutable copy =>
      [("op", .str "declare"), ("place", place)] ++ flagField "mutable" mutable ++
        flagField "copy" copy
  | .move dest src => [("op", .str "move"), ("dest", dest), ("src", src)]
  | .borrow .shared dest referent =>
      [("op", .str "borrow_shared"), ("dest", dest), ("ref", referent)]
  | .borrow .exclusive dest referent =>
      [("op", .str "borrow_exclusive"), ("dest", dest), ("ref", referent)]
  | .write place => [("op", .str "write"), ("place", place)]
  | .read place => [("op", .str "read"), ("place", place)]
  | .consume place => [("op", .str "consume"), ("place", place)]
  | .enter => [("op", .str "enter")]
  | .exit => [("op", .str "exit")]

def toJson (action : Action) : Json := .obj action.fields

end Action

namespace CodeUnit

/-- Read statements, the first of which has the given point. -/
def statementsOfJson (point : Nat) : List Json → Except DataError (List Statement)
  | [] => .ok []
  | data :: rest => do
      let action ← Action.ofJson point data
      let statements ← statementsOfJson (point + 1) rest
      return { action } :: statements

def ofJson (data : Json) : Except DataError CodeUnit :=
  match data.field? "name" with
  | some (.str name) =>
      match (data.field? "statements").getD (.arr []) with
      | .arr items => do
          let statements ← statementsOfJson 0 items
          return { name, statements }
      | _ => .error (.statementsNotList name)
  | _ => .error .notUnit

def toJson (unit : CodeUnit) : Json :=
  .obj [("name", .str unit.name),
    ("statements", .arr (unit.statements.map fun statement => statement.action.toJson))]

end CodeUnit

namespace Program

/-- The units that data holds: a list, an object with `units`, or one unit. -/
def unitItems (data : Json) : Except DataError (List Json) :=
  match data with
  | .obj fields =>
      match fields.lookup "units" with
      | some (.arr items) => .ok items
      | some _ => .error .notProgram
      | none => .ok [data]
  | .arr items => .ok items
  | _ => .error .notProgram

def unitsOfJson : List Json → Except DataError (List CodeUnit)
  | [] => .ok []
  | data :: rest => do
      let unit ← CodeUnit.ofJson data
      let units ← unitsOfJson rest
      return unit :: units

def ofJson (data : Json) : Except DataError Program := do
  let items ← unitItems data
  let units ← unitsOfJson items
  return { units }

/-- Read a program from the text of its data. -/
def readData (text : List Char) : Except DataError Program :=
  match Json.parseChars text with
  | .ok data => ofJson data
  | .error error => .error (.notJson error)

def toJson (program : Program) : Json :=
  .obj [("units", .arr (program.units.map CodeUnit.toJson))]

/-- The data of a program over indented lines. -/
def writeData (program : Program) : String :=
  program.toJson.write (.indented 2)

end Program

end LoanCheck
