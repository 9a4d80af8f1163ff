import LoanCheck.Text.Quoted

/-!
Decoding the bytes of a file.  The decoder reads one byte at a time; a failure
covers the bytes of the broken character that were still well formed.
-/

namespace LoanCheck.Text

/-- Why bytes are no text. -/
inductive DecodeReason where
  | startByte
  | continuationByte
  | endOfData
deriving DecidableEq, Repr

/-- The bytes from `start` to just before `stop` are no character; `byte` is the first. -/
structure DecodeError where
  start : Nat
  stop : Nat
  byte : UInt8
  reason : DecodeReason
deriving DecidableEq, Repr

/-- A character of which the first bytes have been read. -/
structure PartialChar where
  start : Nat
  byte : UInt8
  /-- Continuation bytes still owed. -/
  owed : Nat
  /-- Bounds of the next continuation byte. -/
  low : UInt8
  high : UInt8
  value : Nat

/-- What a first byte announces, if more bytes must follow. -/
def PartialChar.begin? (start : Nat) (byte : UInt8) : Option PartialChar :=
  let code := byte.toNat
  if 0xc2 ≤ code ∧ code ≤ 0xdf then some ⟨start, byte, 1, 0x80, 0xbf, code - 0xc0⟩
  else if code = 0xe0 then some ⟨start, byte, 2, 0xa0, 0xbf, 0⟩
  else if code = 0xed then some ⟨start, byte, 2, 0x80, 0x9f, 0xd⟩
  else if 0xe1 ≤ code ∧ code ≤ 0xef then some ⟨start, byte, 2, 0x80, 0xbf, code - 0xe0⟩
  else if code = 0xf0 then some ⟨start, byte, 3, 0x90, 0xbf, 0⟩
  else if 0xf1 ≤ code ∧ code ≤ 0xf3 then some ⟨start, byte, 3, 0x80, 0xbf, code - 0xf0⟩
  else if code = 0xf4 then some ⟨start, byte, 3, 0x80, 0x8f, 4⟩
  else none

/-- Decode the bytes from a position on, inside a character or between two.
The characters read so far are in `done`, the last one first. -/
def decodeFrom (position : Nat) (done : List Char) :
    Option PartialChar → List UInt8 → Except DecodeError (List Char)
  | none, [] => .ok done.reverse
  | some begun, [] => .error ⟨begun.start, position, begun.byte, .endOfData⟩
  | none, byte :: rest =>
      if byte < 0x80 then decodeFrom (position + 1) (Char.ofNat byte.toNat :: done) none rest
      else
        match PartialChar.begin? position byte with
        | some begun => decodeFrom (position + 1) done (some begun) rest
        | none => .error ⟨position, position + 1, byte, .startByte⟩
  | some begun, byte :: rest =>
      if begun.low ≤ byte ∧ byte ≤ begun.high then
        let value := 64 * begun.value + (byte.toNat - 0x80)
        if begun.owed ≤ 1 then decodeFrom (position + 1) (Char.ofNat value :: done) none rest
        else
          decodeFrom (position + 1) done
            (some { begun with owed := begun.owed - 1, low := 0x80, high := 0xbf, value }) rest
      else .error ⟨begun.start, position, begun.byte, .continuationByte⟩

/-- Decode a whole file. -/
def decode (bytes : List UInt8) : Except DecodeError (List Char) :=
  decodeFrom 0 [] none bytes

/-- The bytes of a text. -/
def encode (text : String) : List UInt8 :=
  text.toUTF8.toList

def DecodeReason.message : DecodeReason → String
  | .startByte => "invalid start byte"
  | .continuationByte => "invalid continuation byte"
  | .endOfData => "unexpected end of data"

def DecodeError.message (error : DecodeError) : String :=
  let reason := error.reason.message
  if error.stop = error.start + 1 then
    let byte := String.ofList (hexadecimal 2 error.byte.toNat)
    s!"'utf-8' codec can't decode byte 0x{byte} in position {error.start}: {reason}"
  else
    s!"'utf-8' codec can't decode bytes in position {error.start}-{error.stop - 1}: {reason}"

/-- Copy a text onto `done`, the last character first, with one newline for each
line end of one or two characters. -/
def unifyOnto (done : List Char) : List Char → List Char
  | '\r' :: '\n' :: rest => unifyOnto ('\n' :: done) rest
  | '\r' :: rest => unifyOnto ('\n' :: done) rest
  | c :: rest => unifyOnto (c :: done) rest
  | [] => done

/-- Every line end, of one or two characters, becomes a newline. -/
def unifyNewlines (text : List Char) : List Char :=
  (unifyOnto [] text).reverse

end LoanCheck.Text
