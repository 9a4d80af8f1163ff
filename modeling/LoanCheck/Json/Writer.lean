import LoanCheck.Json.Basic

/-!
Writing the data format, in plain characters only: any other character of a
string is escaped.  A value is written on one line, or over indented lines.
-/

namespace LoanCheck.Json

/-- One escape with four hexadecimal digits. -/
def unicodeEscape (code : Nat) : List Char :=
  '\\' :: 'u' :: Text.hexadecimal 4 code

/-- A character inside a string; one beyond sixteen bits becomes a pair of escapes. -/
def escapeChar (c : Char) : List Char :=
  if c = '"' ∨ c = '\\' then ['\\', c]
  else if c = '\n' then ['\\', 'n']
  else if c = '\r' then ['\\', 'r']
  else if c = '\t' then ['\\', 't']
  else if c.toNat = 8 then ['\\', 'b']
  else if c.toNat = 12 then ['\\', 'f']
  else if 0x20 ≤ c.toNat ∧ c.toNat < 0x7f then [c]
  else if c.toNat < 0x10000 then unicodeEscape c.toNat
  else
    let code := c.toNat - 0x10000
    unicodeEscape (0xd800 + code / 1024) ++ unicodeEscape (0xdc00 + code % 1024)

def writeString (text : String) : List Char :=
  '"' :: (text.toList.flatMap escapeChar ++ ['"'])

/-- Doubles in written values. -/
def numberFormat : Binary64.Format := ⟨-4, 15, 2, "Infinity", "NaN"⟩

/-- How the parts of a list or object are set out. -/
inductive Style where
  | line
  | indented (width : Nat)
deriving DecidableEq, Repr

/-- What opens a new line at a depth. -/
def Style.newline (width depth : Nat) : List Char :=
  '\n' :: List.replicate (width * depth) ' '

/-- What stands between a bracket and the first part at the given depth. -/
def Style.opening (depth : Nat) : Style → List Char
  | .line => []
  | .indented width => newline width depth

/-- What stands between two parts at the given depth. -/
def Style.separator (depth : Nat) : Style → List Char
  | .line => [',', ' ']
  | .indented width => ',' :: newline width depth

mutual

/-- Write a value whose own line is at the given depth. -/
def writeAt (style : Style) (depth : Nat) : Json → List Char
  | .null => "null".toList
  | .bool true => "true".toList
  | .bool false => "false".toList
  | .int value => integerChars value
  | .float value => value.write numberFormat
  | .str value => writeString value
  | .arr [] => ['[', ']']
  | .arr (item :: rest) =>
      '[' :: (style.opening (depth + 1) ++
        (joined (style.separator (depth + 1)) (writeItems style (depth + 1) (item :: rest)) ++
          (style.opening depth ++ [']'])))
  | .obj [] => ['{', '}']
  | .obj (field :: rest) =>
      '{' :: (style.opening (depth + 1) ++
        (joined (style.separator (depth + 1)) (writeFields style (depth + 1) (field :: rest)) ++
          (style.opening depth ++ ['}'])))

def writeItems (style : Style) (depth : Nat) : List Json → List (List Char)
  | [] => []
  | item :: rest => writeAt style depth item :: writeItems style depth rest

def writeFields (style : Style) (depth : Nat) : List (String × Json) → List (List Char)
  | [] => []
  | (key, value) :: rest =>
      (writeString key ++ [':', ' '] ++ writeAt style depth value) ::
        writeFields style depth rest

end

def write (style : Style) (value : Json) : String :=
  String.ofList (writeAt style 0 value)

end LoanCheck.Json
