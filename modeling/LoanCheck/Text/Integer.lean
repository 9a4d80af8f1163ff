/-!
Reading integers as a person writes them: blanks around the number, one sign,
decimal digits of any script, and single underscores between digits.  There is a
limit on the number of digits.
-/

namespace LoanCheck.Text

/-- The code points of the digit zero; the other nine digits follow each. -/
def zeroCodes : List Nat :=
  [0x30, 0x660, 0x6f0, 0x7c0, 0x966, 0x9e6, 0xa66, 0xae6, 0xb66, 0xbe6, 0xc66, 0xce6, 0xd66,
    0xde6, 0xe50, 0xed0, 0xf20, 0x1040, 0x1090, 0x17e0, 0x1810, 0x1946, 0x19d0, 0x1a80, 0x1a90,
    0x1b50, 0x1bb0, 0x1c40, 0x1c50, 0xa620, 0xa8d0, 0xa900, 0xa9d0, 0xa9f0, 0xaa50, 0xabf0,
    0xff10, 0x104a0, 0x10d30, 0x11066, 0x110f0, 0x11136, 0x111d0, 0x112f0, 0x11450, 0x114d0,
    0x11650, 0x116c0, 0x11730, 0x118e0, 0x11950, 0x11c50, 0x11d50, 0x11da0, 0x16a60, 0x16ac0,
    0x16b50, 0x1d7ce, 0x1d7d8, 0x1d7e2, 0x1d7ec, 0x1d7f6, 0x1e140, 0x1e2f0, 0x1e950, 0x1fbf0]

/-- The value of a decimal digit of any script. -/
def digitValue? (c : Char) : Option Nat :=
  (zeroCodes.find? fun code => code ≤ c.toNat && c.toNat < code + 10).map (c.toNat - ·)

/-- Code points of the spaces beyond the control and plain ones. -/
def wideBlankCodes : List Nat :=
  [0x85, 0xa0, 0x1680, 0x2000, 0x2001, 0x2002, 0x2003, 0x2004, 0x2005, 0x2006, 0x2007, 0x2008,
    0x2009, 0x200a, 0x2028, 0x2029, 0x202f, 0x205f, 0x3000]

/-- Whether a character may surround a number. -/
def isBlank (c : Char) : Bool :=
  c == ' ' || (9 ≤ c.toNat && c.toNat ≤ 13) || wideBlankCodes.contains c.toNat

/-- The text without blanks at either end. -/
def trimBlanks (text : List Char) : List Char :=
  ((text.dropWhile isBlank).reverse.dropWhile isBlank).reverse

/-- Read digits after at least one digit; an underscore must lie between two. -/
def readDigits? (value : Nat) : List Char → Option Nat
  | [] => some value
  | '_' :: c :: rest => (digitValue? c).bind fun digit => readDigits? (10 * value + digit) rest
  | c :: rest => (digitValue? c).bind fun digit => readDigits? (10 * value + digit) rest

/-- Integers with more digits than this are not read. -/
def maxDigits : Nat := 4300

/-- An integer has more digits than are read. -/
structure LongInteger where
  digits : Nat
deriving DecidableEq, Repr

def LongInteger.message (error : LongInteger) : String :=
  s!"Exceeds the limit ({maxDigits} digits) for integer string conversion: value has " ++
    s!"{error.digits} digits; use sys.set_int_max_str_digits() to increase the limit"

/-- How many digits a text has. -/
def digitCount (text : List Char) : Nat :=
  text.countP fun c => (digitValue? c).isSome

/-- Read an unsigned number. -/
def readNatural? (text : List Char) : Option Nat :=
  if maxDigits < digitCount text then none
  else
    match text with
    | [] => none
    | c :: rest => (digitValue? c).bind fun digit => readDigits? digit rest

/-- Read an integer. -/
def readInteger? (text : List Char) : Option Int :=
  match trimBlanks text with
  | '-' :: rest => (readNatural? rest).map fun value => -(value : Int)
  | '+' :: rest => (readNatural? rest).map fun value => (value : Int)
  | rest => (readNatural? rest).map fun value => (value : Int)

end LoanCheck.Text
