import LoanCheck.Json.Basic
import LoanCheck.Text.Integer
import LoanCheck.Text.Mark

/-!
Reading the data format.  Each reader takes the text still to be read and gives
back what follows.  A failure records how much text was left where it arose, from
which its offset, line and column follow.
-/

namespace LoanCheck.Json

inductive Container where
  | array
  | object
deriving DecidableEq, Repr

/-- What is not read, however well formed it is. -/
inductive Limit where
  | integer (error : Text.LongInteger)
  | nesting (container : Container)
  /-- Half of a surrogate pair alone.  Strings hold characters here, and no character stands for
  it, so texts with such an escape are left out. -/
  | half (code : Nat)
deriving DecidableEq, Repr

def Limit.message : Limit → String
  | .integer error => error.message
  | .nesting .array =>
      "maximum recursion depth exceeded while decoding a JSON array from a unicode string"
  | .nesting .object =>
      "maximum recursion depth exceeded while decoding a JSON object from a unicode string"
  | .half code => s!"surrogate {code} is left out"

/-- How many arrays and objects may lie inside each other.  A reader that calls itself for each of
them ends with the stack of the interpreter that runs it, so the number differs with the
interpreter and with the depth of calls that the reader is reached by.  988 is what a limit of 1000
calls leaves at one such depth, and stands for all of them. -/
def maxNesting : Nat := 988

/-- What is wrong with a text. -/
inductive Issue where
  | value
  | trailing
  | comma
  | colon
  | fieldName
  | openString
  | controlCharacter
  | escape
  | unicodeEscape
  | byteOrderMark
  | limit (limit : Limit)
deriving DecidableEq, Repr

def Issue.message : Issue → String
  | .value => "Expecting value"
  | .trailing => "Extra data"
  | .comma => "Expecting ',' delimiter"
  | .colon => "Expecting ':' delimiter"
  | .fieldName => "Expecting property name enclosed in double quotes"
  | .openString => "Unterminated string starting at"
  | .controlCharacter => "Invalid control character at"
  | .escape => "Invalid \\escape"
  | .unicodeEscape => "Invalid \\uXXXX escape"
  | .byteOrderMark => "Unexpected UTF-8 BOM (decode using utf-8-sig)"
  | .limit passed => passed.message

/-- An issue met with `remaining` characters left to read. -/
structure Failure where
  issue : Issue
  remaining : Nat
deriving DecidableEq, Repr

/-- An issue at an offset of the text, which is also given as a line and column. -/
structure ReadError where
  issue : Issue
  offset : Nat
  mark : Text.Mark
deriving DecidableEq, Repr

/-- The limit that was passed, if that is what is wrong.  The text is then well formed
as far as it was read. -/
def ReadError.limit? (error : ReadError) : Option Limit :=
  match error.issue with
  | .limit passed => some passed
  | _ => none

def ReadError.message (error : ReadError) : String :=
  let what := error.issue.message
  let mark := error.mark
  s!"{what}: line {mark.line} column {mark.column} (char {error.offset})"

def failAt {Alpha : Type} (issue : Issue) (rest : List Char) : Except Failure Alpha :=
  .error ⟨issue, rest.length⟩

/-- The blanks of the format. -/
def isBlank (c : Char) : Bool :=
  c == ' ' || c == '\t' || c == '\n' || c == '\r'

def skipBlanks (text : List Char) : List Char :=
  text.dropWhile isBlank

def hexDigit? (c : Char) : Option Nat :=
  let code := c.toNat
  if 48 ≤ code ∧ code ≤ 57 then some (code - 48)
  else if 97 ≤ code ∧ code ≤ 102 then some (code - 87)
  else if 65 ≤ code ∧ code ≤ 70 then some (code - 55)
  else none

/-- The number written by four hexadecimal digits. -/
def hexQuad? (first second third fourth : Char) : Option Nat := do
  let first ← hexDigit? first
  let second ← hexDigit? second
  let third ← hexDigit? third
  let fourth ← hexDigit? fourth
  return 4096 * first + 256 * second + 16 * third + fourth

def isHighSurrogate (code : Nat) : Bool := 0xd800 ≤ code && code ≤ 0xdbff

def isLowSurrogate (code : Nat) : Bool := 0xdc00 ≤ code && code ≤ 0xdfff

/-- The character that a pair of surrogates stands for. -/
def joinSurrogates (high low : Nat) : Char :=
  Char.ofNat (0x10000 + 1024 * (high - 0xd800) + (low - 0xdc00))

/-- The character named by a letter after a backslash. -/
def simpleEscape? (c : Char) : Option Char :=
  if c = '"' ∨ c = '\\' ∨ c = '/' then some c
  else if c = 'b' then some (Char.ofNat 8)
  else if c = 'f' then some (Char.ofNat 12)
  else if c = 'n' then some '\n'
  else if c = 'r' then some '\r'
  else if c = 't' then some '\t'
  else none

/-- Read what follows a backslash: the character meant and the length of its
escape.  Two escapes that make up a pair of surrogates are read as one. -/
def escapeFrom : List Char → Except Failure (Char × Nat)
  | 'u' :: rest =>
      match rest with
      | a :: b :: c :: d :: next :: more =>
          match hexQuad? a b c d with
          | none => .error ⟨.unicodeEscape, rest.length + 1⟩
          | some code =>
              if isHighSurrogate code then
                match next :: more with
                | '\\' :: 'u' :: a :: b :: c :: d :: _ :: after =>
                    match hexQuad? a b c d with
                    | none => .error ⟨.unicodeEscape, after.length + 6⟩
                    | some low =>
                        if isLowSurrogate low then .ok (joinSurrogates code low, 11)
                        else .error ⟨.limit (.half code), rest.length + 1⟩
                | _ => .error ⟨.limit (.half code), rest.length + 1⟩
              else if isLowSurrogate code then .error ⟨.limit (.half code), rest.length + 1⟩
              else .ok (Char.ofNat code, 5)
      | _ => .error ⟨.unicodeEscape, rest.length + 1⟩
  | rest =>
      match rest.head?.bind simpleEscape? with
      | some character => .ok (character, 1)
      | none => .error ⟨.escape, rest.length + 1⟩

/-- Read the rest of a string after its opening quote, where `opening` characters
were left.  The characters read so far are in `done`, the last one first, and the
next `skip` characters belong to an escape already read. -/
def stringFrom (opening : Nat) (done : List Char) :
    Nat → List Char → Except Failure (List Char × List Char)
  | _, [] => .error ⟨.openString, opening⟩
  | skip + 1, _ :: rest => stringFrom opening done skip rest
  | 0, c :: rest =>
      if c = '"' then .ok (done.reverse, rest)
      else if c = '\\' then
        if rest.isEmpty then .error ⟨.openString, opening⟩
        else
          match escapeFrom rest with
          | .ok (character, length) => stringFrom opening (character :: done) length rest
          | .error failure => .error failure
      else if c.toNat < 0x20 then failAt .controlCharacter (c :: rest)
      else stringFrom opening (c :: done) 0 rest

def isDigit (c : Char) : Bool := '0' ≤ c && c ≤ '9'

/-- The longest run of digits and what follows it. -/
def digits (text : List Char) : List Char × List Char :=
  text.span isDigit

def digitsValue (text : List Char) : Nat :=
  text.foldl (fun value c => 10 * value + (c.toNat - 48)) 0

/-- The digits before the point: a zero alone, or digits that do not start with one. -/
def wholePart? : List Char → Option (List Char × List Char)
  | [] => none
  | c :: rest =>
      if c = '0' then some ([c], rest)
      else if isDigit c then some (digits (c :: rest))
      else none

/-- The digits after a point, if a point and a digit follow. -/
def fractionPart? : List Char → Option (List Char × List Char)
  | '.' :: rest =>
      match digits rest with
      | ([], _) => none
      | found => some found
  | _ => none

/-- The exponent, if a mark, perhaps a sign, and a digit follow. -/
def exponentPart? : List Char → Option (Int × List Char)
  | mark :: rest =>
      if mark = 'e' ∨ mark = 'E' then
        let (negative, rest) :=
          match rest with
          | '-' :: rest => (true, rest)
          | '+' :: rest => (false, rest)
          | rest => (false, rest)
        match digits rest with
        | ([], _) => none
        | (found, rest) =>
            let size : Int := digitsValue found
            some (if negative then -size else size, rest)
      else none
  | [] => none

/-- An integer of some digits, unless they are too many. -/
def integerFrom (text : List Char) (negative : Bool) (whole rest : List Char) :
    Except Failure (Json × List Char) :=
  if Text.maxDigits < whole.length then failAt (.limit (.integer ⟨whole.length⟩)) text
  else
    let size : Int := digitsValue whole
    .ok (.int (if negative then -size else size), rest)

/-- Read a number: a double if it has a fraction or an exponent, else an integer. -/
def numberFrom (text : List Char) : Except Failure (Json × List Char) :=
  let (negative, unsigned) :=
    match text with
    | '-' :: rest => (true, rest)
    | text => (false, text)
  match wholePart? unsigned with
  | none => failAt .value text
  | some (whole, rest) =>
      let (fraction, rest) := (fractionPart? rest).getD ([], rest)
      match exponentPart? rest with
      | some (exponent, rest) =>
          let coefficient := digitsValue (whole ++ fraction)
          .ok (.float (.ofDecimal negative coefficient (exponent - fraction.length)), rest)
      | none =>
          if fraction.isEmpty then integerFrom text negative whole rest
          else
            let coefficient := digitsValue (whole ++ fraction)
            .ok (.float (.ofDecimal negative coefficient (-(fraction.length : Int))), rest)

/-- The words that are values. -/
def wordValues : List (String × Json) :=
  [("null", .null), ("true", .bool true), ("false", .bool false), ("NaN", .float .notANumber),
    ("Infinity", .float (.infinite false)), ("-Infinity", .float (.infinite true))]

/-- Read a word that is a value. -/
def word? (text : List Char) : Option (Json × List Char) :=
  wordValues.findSome? fun (word, value) =>
    if word.toList.isPrefixOf text then some (value, text.drop word.length) else none

mutual

/-- Read a value.  Every call consumes a character or hands the text to the one
reader below, so twice the length of the text is enough fuel.  Another `room` arrays
and objects may lie inside each other. -/
def valueFrom : Nat → Nat → List Char → Except Failure (Json × List Char)
  | 0, _, text => failAt .value text
  | fuel + 1, room, text =>
      match text with
      | [] => failAt .value []
      | c :: rest =>
          if c = '"' then do
            let (characters, rest) ← stringFrom (rest.length + 1) [] 0 rest
            return (.str (String.ofList characters), rest)
          else if c = '[' then
            match room with
            | 0 => failAt (.limit (.nesting .array)) text
            | room + 1 => do
                match skipBlanks rest with
                | ']' :: rest => return (.arr [], rest)
                | rest =>
                    let (items, rest) ← itemsFrom fuel room rest
                    return (.arr items, rest)
          else if c = '{' then
            match room with
            | 0 => failAt (.limit (.nesting .object)) text
            | room + 1 => do
                match skipBlanks rest with
                | '}' :: rest => return (.obj [], rest)
                | rest =>
                    let (fields, rest) ← fieldsFrom fuel room [] rest
                    return (.obj fields, rest)
          else
            match word? text with
            | some found => .ok found
            | none => numberFrom text

/-- Read the items of an array up to its closing bracket. -/
def itemsFrom : Nat → Nat → List Char → Except Failure (List Json × List Char)
  | 0, _, text => failAt .value text
  | fuel + 1, room, text => do
      let (item, rest) ← valueFrom fuel room text
      match skipBlanks rest with
      | ']' :: rest => return ([item], rest)
      | ',' :: rest =>
          let (items, rest) ← itemsFrom fuel room (skipBlanks rest)
          return (item :: items, rest)
      | rest => failAt .comma rest

/-- Read the fields of an object up to its closing brace, after those in `done`. -/
def fieldsFrom : Nat → Nat → List (String × Json) → List Char →
    Except Failure (List (String × Json) × List Char)
  | 0, _, _, text => failAt .value text
  | fuel + 1, room, done, text => do
      match text with
      | '"' :: rest =>
          let (key, rest) ← stringFrom (rest.length + 1) [] 0 rest
          match skipBlanks rest with
          | ':' :: rest =>
              let (value, rest) ← valueFrom fuel room (skipBlanks rest)
              let done := insertField (String.ofList key) value done
              match skipBlanks rest with
              | '}' :: rest => return (done, rest)
              | ',' :: rest => fieldsFrom fuel room done (skipBlanks rest)
              | rest => failAt .comma rest
          | rest => failAt .colon rest
      | text => failAt .fieldName text

end

/-- Read a text that holds one value and nothing else. -/
def readAll (text : List Char) : Except Failure Json :=
  if text.head? = some (Char.ofNat 0xfeff) then failAt .byteOrderMark text
  else do
    let (value, rest) ← valueFrom (2 * text.length + 2) maxNesting (skipBlanks text)
    match skipBlanks rest with
    | [] => return value
    | rest => failAt .trailing rest

/-- Read a text, with the place of a failure. -/
def parseChars (text : List Char) : Except ReadError Json :=
  match readAll text with
  | .ok value => .ok value
  | .error failure =>
      let offset := text.length - failure.remaining
      .error ⟨failure.issue, offset, Text.Mark.first.pastAll (text.take offset)⟩

def parse (text : String) : Except ReadError Json :=
  parseChars text.toList

end LoanCheck.Json
