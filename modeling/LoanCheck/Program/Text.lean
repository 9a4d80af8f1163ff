import LoanCheck.Fault
import LoanCheck.Program.Basic

/-!
Programs as text.

A statement is a keyword, names and signs, ended by `;`; scopes are opened and
closed by braces or by `enter;` and `exit;`; a header `unit name:` begins a named
unit.  Blanks and comments may stand between lexemes.  What counts as a lexeme
depends on what is expected: where a statement may start only keywords and braces
do, so a keyword needs no separator after it, and where a name is expected any
identifier is one.
-/

namespace LoanCheck.SourceText

open LoanCheck.Text (Mark)

def isLetter (c : Char) : Bool :=
  ('a' ≤ c && c ≤ 'z') || ('A' ≤ c && c ≤ 'Z') || c == '_'

def isWordChar (c : Char) : Bool :=
  isLetter c || ('0' ≤ c && c ≤ '9')

/-- Blanks between lexemes. -/
def isLayout (c : Char) : Bool :=
  c == ' ' || c == '\t' || c == '\n' || c == '\r' || c.toNat == 12

def signs : List Char := [';', '=', '&', ':', '{', '}']

/-- The longest identifier at the start of a text. -/
def word? : List Char → Option (List Char)
  | [] => none
  | c :: rest => if isLetter c then some (c :: rest.takeWhile isWordChar) else none

/-- A sign at the start of a text. -/
def sign? : List Char → Option (List Char)
  | [] => none
  | c :: _ => if signs.contains c then some [c] else none

/-- Any lexeme at the start of a text, whatever is expected there. -/
def lexeme? (text : List Char) : Option (List Char) :=
  (word? text).or (sign? text)

inductive Keyword where
  | unit
  | bind
  | shadow
  | declare
  | move
  | borrow
  | read
  | write
  | consume
  | enter
  | exit
deriving DecidableEq, Repr

namespace Keyword

def text : Keyword → List Char
  | .unit => ['u', 'n', 'i', 't']
  | .bind => ['b', 'i', 'n', 'd']
  | .shadow => ['s', 'h', 'a', 'd', 'o', 'w']
  | .declare => ['d', 'e', 'c', 'l', 'a', 'r', 'e']
  | .move => ['m', 'o', 'v', 'e']
  | .borrow => ['b', 'o', 'r', 'r', 'o', 'w']
  | .read => ['r', 'e', 'a', 'd']
  | .write => ['w', 'r', 'i', 't', 'e']
  | .consume => ['c', 'o', 'n', 's', 'u', 'm', 'e']
  | .enter => ['e', 'n', 't', 'e', 'r']
  | .exit => ['e', 'x', 'i', 't']

def all : List Keyword :=
  [.unit, .bind, .shadow, .declare, .move, .borrow, .read, .write, .consume, .enter, .exit]

/-- The keyword that a text starts with; no keyword starts another. -/
def atStart? (text : List Char) : Option Keyword :=
  all.find? fun keyword => keyword.text.isPrefixOf text

end Keyword

def mutableWord : List Char := ['m', 'u', 't']

def copyWord : List Char := ['c', 'o', 'p', 'y']

/-- A declaration whose flags are being read. -/
structure Binder where
  keyword : Keyword
  mutable : Bool := false
  copy : Bool := false
deriving DecidableEq, Repr

/-- The bind or shadow statement of a binder. -/
def Binder.bind (binder : Binder) (place : Name) (source : Option Name) : Action :=
  .bind place (.bool binder.mutable) source (.bool (binder.keyword = .shadow))
    (.bool binder.copy)

/-- What has been read of a statement or header, and so what may follow. -/
inductive Pending where
  /-- A statement or header may start. -/
  | start
  | unitName
  | unitColon (name : List Char)
  /-- A flag or the declared name. -/
  | binderName (binder : Binder)
  /-- `=` or `;`. -/
  | binderEnd (binder : Binder) (place : Name)
  /-- The word `move` before a source. -/
  | sourceMove (binder : Binder) (place : Name)
  | sourceName (binder : Binder) (place : Name)
  | moveDest
  | moveEquals (dest : Name)
  | moveSource (dest : Name)
  | borrowDest
  | borrowEquals (dest : Name)
  | borrowSign (dest : Name)
  /-- The word `mut` or the referent. -/
  | borrowReferent (dest : Name)
  | exclusiveReferent (dest : Name)
  | writePlace
  | readPlace
  | consumePlace
  /-- All but the `;`. -/
  | semicolon (action : Action)

/-- What a lexeme leads to. -/
inductive Advance where
  | more (pending : Pending)
  | statement (action : Action)
  | unit (name : List Char)

namespace Pending

/-- The lexeme at the start of a text, given what is expected. -/
def lexeme? (pending : Pending) (text : List Char) : Option (List Char) :=
  match pending with
  | .start =>
      match Keyword.atStart? text with
      | some keyword => some keyword.text
      | none => sign? text
  | .sourceMove _ _ =>
      if Keyword.move.text.isPrefixOf text then some Keyword.move.text else none
  | .unitName | .binderName _ | .sourceName _ _ | .moveDest | .moveSource _ | .borrowDest
  | .borrowReferent _ | .exclusiveReferent _ | .writePlace | .readPlace | .consumePlace =>
      word? text
  | .unitColon _ | .binderEnd _ _ | .moveEquals _ | .borrowEquals _ | .borrowSign _
  | .semicolon _ => sign? text

/-- What a keyword at the start of a statement leads to. -/
def begin : Keyword → Pending
  | .unit => .unitName
  | .bind => .binderName { keyword := .bind }
  | .shadow => .binderName { keyword := .shadow }
  | .declare => .binderName { keyword := .declare }
  | .move => .moveDest
  | .borrow => .borrowDest
  | .read => .readPlace
  | .write => .writePlace
  | .consume => .consumePlace
  | .enter => .semicolon .enter
  | .exit => .semicolon .exit

/-- A word as a place name. -/
def nameOf (word : List Char) : Name := .str (String.ofList word)

/-- Take a lexeme, unless it cannot stand here. -/
def advance? (pending : Pending) (lexeme : List Char) : Option Advance :=
  match pending with
  | .start =>
      if lexeme = ['{'] then some (.statement .enter)
      else if lexeme = ['}'] then some (.statement .exit)
      else (Keyword.all.find? fun keyword => keyword.text = lexeme).map fun keyword =>
        .more (begin keyword)
  | .unitName => some (.more (.unitColon lexeme))
  | .unitColon name => if lexeme = [':'] then some (.unit name) else none
  | .binderName binder =>
      if lexeme = mutableWord then some (.more (.binderName { binder with mutable := true }))
      else if lexeme = copyWord then some (.more (.binderName { binder with copy := true }))
      else if binder.keyword = .declare then
        some (.more (.semicolon
          (.declare (nameOf lexeme) (.bool binder.mutable) (.bool binder.copy))))
      else some (.more (.binderEnd binder (nameOf lexeme)))
  | .binderEnd binder place =>
      if lexeme = ['='] then some (.more (.sourceMove binder place))
      else if lexeme = [';'] then some (.statement (binder.bind place none))
      else none
  | .sourceMove binder place => some (.more (.sourceName binder place))
  | .sourceName binder place =>
      some (.more (.semicolon (binder.bind place (some (nameOf lexeme)))))
  | .moveDest => some (.more (.moveEquals (nameOf lexeme)))
  | .moveEquals dest => if lexeme = ['='] then some (.more (.moveSource dest)) else none
  | .moveSource dest => some (.more (.semicolon (.move dest (nameOf lexeme))))
  | .borrowDest => some (.more (.borrowEquals (nameOf lexeme)))
  | .borrowEquals dest => if lexeme = ['='] then some (.more (.borrowSign dest)) else none
  | .borrowSign dest => if lexeme = ['&'] then some (.more (.borrowReferent dest)) else none
  | .borrowReferent dest =>
      if lexeme = mutableWord then some (.more (.exclusiveReferent dest))
      else some (.more (.semicolon (.borrow .shared dest (nameOf lexeme))))
  | .exclusiveReferent dest =>
      some (.more (.semicolon (.borrow .exclusive dest (nameOf lexeme))))
  | .writePlace => some (.more (.semicolon (.write (nameOf lexeme))))
  | .readPlace => some (.more (.semicolon (.read (nameOf lexeme))))
  | .consumePlace => some (.more (.semicolon (.consume (nameOf lexeme))))
  | .semicolon action => if lexeme = [';'] then some (.statement action) else none

end Pending

inductive Issue where
  | lexeme (text : List Char)
  | character (c : Char)
  | endOfInput
deriving DecidableEq, Repr

/-- A text that is no program, with the place where that shows. -/
structure ReadError where
  issue : Issue
  mark : Mark
deriving DecidableEq, Repr

def Issue.message : Issue → String
  | .lexeme text => "unexpected " ++ String.ofList (Text.quotedChars text)
  | .character c => "unexpected character " ++ String.ofList (Text.quotedChars [c])
  | .endOfInput => "unexpected end of input"

def ReadError.fault (file : Option String) (error : ReadError) : Fault :=
  { kind := .malformedText
    message := error.issue.message
    span := some (Span.atMark file error.mark) }

/-- What cannot be taken at the start of a text. -/
def issueAt (c : Char) (rest : List Char) : Issue :=
  match lexeme? (c :: rest) with
  | some lexeme => .lexeme lexeme
  | none => .character c

/-- How far a text has been read. -/
structure Reader where
  file : Option String
  pending : Pending := .start
  /-- The place of the next character. -/
  mark : Mark := .first
  /-- Where the statement being read starts. -/
  started : Mark := .first
  /-- Where the latest lexeme starts. -/
  latest : Mark := .first
  comment : Bool := false
  /-- Statements before any header. -/
  anonymous : List Statement := []
  /-- Named units, the current one first. -/
  units : List CodeUnit := []

namespace Reader

/-- Pass a character that is part of a lexeme or of the layout. -/
def pass (reader : Reader) (c : Char) : Reader :=
  { reader with mark := reader.mark.past c }

/-- Add a statement to the current unit. -/
def addStatement (reader : Reader) (statement : Statement) : Reader :=
  match reader.units with
  | [] => { reader with anonymous := reader.anonymous ++ [statement] }
  | unit :: rest =>
      { reader with
        units := { unit with statements := unit.statements ++ [statement] } :: rest }

/-- Take a lexeme that starts at the current place. -/
def take (reader : Reader) (lexeme : List Char) (advance : Advance) : Reader :=
  let started :=
    match reader.pending with
    | .start => reader.mark
    | _ => reader.started
  let reader := { reader with started, latest := reader.mark }
  match advance with
  | .more pending => { reader with pending }
  | .statement action =>
      let loc := Span.between reader.file started (reader.mark.pastAll lexeme)
      { reader with pending := .start }.addStatement { action, loc }
  | .unit name =>
      { reader with
        pending := .start
        units := { name := String.ofList name, statements := [] } :: reader.units }

/-- Read a text.  The next `held` characters belong to a lexeme already taken. -/
def run (reader : Reader) : Nat → List Char → Except ReadError Reader
  | _, [] => .ok reader
  | held + 1, c :: rest => run (reader.pass c) held rest
  | 0, c :: rest =>
      if reader.comment then run { reader.pass c with comment := c ≠ '\n' } 0 rest
      else if isLayout c then run (reader.pass c) 0 rest
      else if c = '#' then run { reader.pass c with comment := true } 0 rest
      else
        match reader.pending.lexeme? (c :: rest) with
        | none => .error ⟨issueAt c rest, reader.mark⟩
        | some lexeme =>
            match reader.pending.advance? lexeme with
            | none => .error ⟨issueAt c rest, reader.mark⟩
            | some advance => run ((reader.take lexeme advance).pass c) (lexeme.length - 1) rest

end Reader

/-- Read a whole text. -/
def read (file : Option String) (text : List Char) : Except ReadError Reader :=
  match Reader.run { file } 0 text with
  | .error error => .error error
  | .ok reader =>
      match reader.pending with
      | .start => .ok reader
      | _ => .error ⟨.endOfInput, reader.latest⟩

/-- The program that was read.  The statements before any header form a unit with
the default name, unless there are none and a header follows. -/
def Reader.program (reader : Reader) (defaultName : String) : Program :=
  let named := reader.units.reverse
  if reader.anonymous.isEmpty && !named.isEmpty then { units := named }
  else { units := { name := defaultName, statements := reader.anonymous } :: named }

end LoanCheck.SourceText

namespace LoanCheck

/-- The name of the unit without a header. -/
def Program.defaultName : String := "main"

/-- Read a program from text. -/
def Program.readText (file : Option String) (defaultName : String) (text : List Char) :
    Except SourceText.ReadError Program :=
  (SourceText.read file text).map fun reader => reader.program defaultName

/-- Why a text is no single unit. -/
inductive UnitTextError where
  | text (error : SourceText.ReadError)
  | unitCount (count : Nat)

def UnitTextError.fault : UnitTextError → Fault
  | .text error => error.fault none
  | .unitCount count =>
      { kind := .malformedText, message := s!"expected exactly one unit, found {count}" }

/-- Read a text that holds one unit. -/
def CodeUnit.readText (name : String) (text : List Char) : Except UnitTextError CodeUnit :=
  match Program.readText none name text with
  | .error error => .error (.text error)
  | .ok program =>
      match program.units with
      | [unit] => .ok unit
      | units => .error (.unitCount units.length)

end LoanCheck
