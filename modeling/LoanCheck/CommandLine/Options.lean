import LoanCheck.Json.Basic
import LoanCheck.Text.Integer

/-!
The options of the command line.

Arguments are first told apart, each by its own text: a name of an option, which
may be shortened as long as it is unique, a number or other text, or the mark `--`
after which everything is text.  Then they are taken from left to right.  The
source files have to stand together.
-/

namespace LoanCheck.CommandLine

inductive Switch where
  | help
  | json
  | precise
  | maxStatements
  | jobs
  | config
  | verbose
deriving DecidableEq, Repr

/-- Whether a switch is followed by a value. -/
def Switch.takesValue : Switch → Bool
  | .maxStatements | .jobs | .config => true
  | .help | .json | .precise | .verbose => false

/-- The spellings of the switches. -/
def spellings : List (List Char × Switch) :=
  [("-h".toList, .help), ("--help".toList, .help), ("--json".toList, .json),
    ("--precise".toList, .precise), ("--max-statements".toList, .maxStatements),
    ("--jobs".toList, .jobs), ("--config".toList, .config), ("-v".toList, .verbose),
    ("--verbose".toList, .verbose)]

/-- An argument, told apart by its own text. -/
inductive Argument where
  /-- The mark `--`. -/
  | mark
  | text (value : List Char)
  /-- A switch, perhaps with a value after an equals sign. -/
  | switch (switch : Switch) (value : Option (List Char))
  /-- A short switch, with a single dash, and the letters in the same argument. -/
  | cluster (switch : Switch) (letters : List Char)
  /-- An unknown option. -/
  | unknown
deriving DecidableEq, Repr

/-- How the program ends without doing its work. -/
inductive Refusal where
  | usage
  | help
deriving DecidableEq, Repr

def Refusal.exitCode : Refusal → Nat
  | .usage => 2
  | .help => 0

/-- Cut an argument at its first equals sign. -/
def splitValue (argument : List Char) : List Char × Option (List Char) :=
  match argument.span (· != '=') with
  | (name, _ :: value) => (name, some value)
  | (name, []) => (name, none)

/-- Whether an argument starts with two dashes. -/
def isLong (argument : List Char) : Bool := "--".toList.isPrefixOf argument

/-- The switches that an argument which is no exact spelling can mean.  A long name
may be cut short, and a short one may be followed by letters. -/
def candidates (argument : List Char) : List Argument :=
  if isLong argument then
    let (name, value) := splitValue argument
    spellings.filterMap fun (spelling, switch) =>
      if name.isPrefixOf spelling then some (.switch switch value) else none
  else
    spellings.filterMap fun (spelling, switch) =>
      if spelling = argument.take 2 then some (.cluster switch (argument.drop 2)) else none

/-- Text without a newline at its end. -/
def withoutNewline (text : List Char) : List Char :=
  if text.getLast? = some '\n' then text.dropLast else text

/-- Digits, or digits around a point with one after it. -/
def isUnsignedNumber (text : List Char) : Bool :=
  let isDigit := fun c => (Text.digitValue? c).isSome
  match text.span isDigit with
  | (whole, []) => !whole.isEmpty
  | (_, '.' :: fraction) => !fraction.isEmpty && fraction.all isDigit
  | _ => false

/-- Whether an argument is a negative number. -/
def isNegativeNumber : List Char → Bool
  | '-' :: rest => isUnsignedNumber rest || isUnsignedNumber (withoutNewline rest)
  | _ => false

/-- Tell an argument apart; one that can mean two switches is refused. -/
def classify (argument : List Char) : Except Refusal Argument :=
  if argument.head? != some '-' then .ok (.text argument)
  else
    match spellings.lookup argument, argument with
    | some switch, _ => .ok (.switch switch none)
    | none, [_] => .ok (.text argument)
    | none, _ =>
        let (name, value) := splitValue argument
        match value, spellings.lookup name with
        | some value, some switch =>
            if isLong argument then .ok (.switch switch (some value))
            else .ok (.cluster switch value)
        | _, _ =>
            match candidates argument with
            | [found] => .ok found
            | _ :: _ => .error .usage
            | [] =>
                if isNegativeNumber argument || argument.contains ' ' then .ok (.text argument)
                else .ok .unknown

/-- Tell all arguments apart. -/
def classifyAll : List (List Char) → Except Refusal (List Argument)
  | [] => .ok []
  | argument :: rest =>
      if argument = "--".toList then .ok (.mark :: rest.map .text)
      else do
        let first ← classify argument
        let others ← classifyAll rest
        return first :: others

/-- What an option is given.  The mark `--` is no value, so an option that it is
attached to is given nothing. -/
inductive Given where
  | nothing
  | value (text : List Char)
deriving DecidableEq, Repr

def Given.ofText (text : List Char) : Given :=
  if text = "--".toList then .nothing else .value text

/-- What the command line asks for.  Numbers that are not named are null. -/
structure Options where
  json : Bool := false
  precise : Bool := false
  verbose : Bool := false
  maxStatements : Json := .null
  jobs : Json := .null
  config : Option Given := none
  sources : List (List Char) := []

/-- The paths of all files that are named. -/
def Options.files (options : Options) : List (List Char) :=
  match options.config with
  | some (.value path) => path :: options.sources
  | _ => options.sources

/-- A number given as a value.  Nothing is an empty list, which is no number. -/
def numberValue : Given → Except Refusal Json
  | .nothing => .ok (.arr [])
  | .value text =>
      match Text.readInteger? text with
      | some number => .ok (.int number)
      | none => .error .usage

/-- Set a switch with its value. -/
def Options.setValue (options : Options) (switch : Switch) (value : List Char) :
    Except Refusal Options :=
  let given := Given.ofText value
  match switch with
  | .maxStatements => do return { options with maxStatements := ← numberValue given }
  | .jobs => do return { options with jobs := ← numberValue given }
  | .config => .ok { options with config := some given }
  | _ => .error .usage

/-- Set a switch that has no value; asking for help ends the program. -/
def Options.setFlag (options : Options) : Switch → Except Refusal Options
  | .help => .error .help
  | .json => .ok { options with json := true }
  | .precise => .ok { options with precise := true }
  | .verbose => .ok { options with verbose := true }
  | _ => .error .usage

/-- The short switch of a letter. -/
def shortSwitch? (letter : Char) : Option Switch := spellings.lookup ['-', letter]

/-- The switches of a cluster: at least one letter has to follow the first switch,
and each has to be a short switch. -/
def clusterSwitches? (switch : Switch) : List Char → Option (List Switch)
  | [] => none
  | letters => (letters.mapM shortSwitch?).map (switch :: ·)

/-- Set switches one after another. -/
def Options.setFlags (options : Options) (switches : List Switch) : Except Refusal Options :=
  switches.foldlM Options.setFlag options

/-- What has been taken from the command line. -/
structure Taken where
  options : Options := {}
  /-- Whether the source files have been taken. -/
  sourcesTaken : Bool := false
  /-- Whether something could not be taken. -/
  extras : Bool := false

/-- The arguments before the next switch, without the mark. -/
def leadingTexts : List Argument → List (List Char)
  | .text value :: rest => value :: leadingTexts rest
  | .mark :: rest => leadingTexts rest
  | _ => []

/-- The text or mark at the head of the arguments has been reached: take the source
files from here, or count what stands here as left over. -/
def Taken.takeTexts (taken : Taken) (arguments : List Argument) : Taken :=
  match taken.sourcesTaken, leadingTexts arguments with
  | false, source :: sources =>
      { taken with
        options := { taken.options with sources := source :: sources }, sourcesTaken := true }
  | _, _ => { taken with extras := true }

/-- Take arguments from left to right.  `inTexts` tells that the run of texts at the
head has been dealt with. -/
def takeAll (taken : Taken) (inTexts : Bool) : List Argument → Except Refusal Taken
  | [] => .ok taken
  | .text value :: rest =>
      if inTexts then takeAll taken true rest
      else takeAll (taken.takeTexts (.text value :: rest)) true rest
  | .mark :: rest =>
      if inTexts then takeAll taken true rest
      else takeAll (taken.takeTexts (.mark :: rest)) true rest
  | .unknown :: rest => takeAll { taken with extras := true } false rest
  | .cluster switch letters :: rest =>
      match clusterSwitches? switch letters with
      | none => .error .usage
      | some switches => do
          let options ← taken.options.setFlags switches
          takeAll { taken with options } false rest
  | .switch switch value :: rest =>
      if switch.takesValue then
        match value, rest with
        | some value, rest => do
            let options ← taken.options.setValue switch value
            takeAll { taken with options } false rest
        | none, .text value :: rest => do
            let options ← taken.options.setValue switch value
            takeAll { taken with options } false rest
        | none, _ => .error .usage
      else
        match value with
        | none => do
            let options ← taken.options.setFlag switch
            takeAll { taken with options } false rest
        | some _ => .error .usage

/-- Read the command line. -/
def parse (arguments : List String) : Except Refusal Options := do
  let arguments ← classifyAll (arguments.map String.toList)
  let taken ← takeAll {} false arguments
  if taken.sourcesTaken && !taken.extras then return taken.options
  else .error .usage

end LoanCheck.CommandLine
