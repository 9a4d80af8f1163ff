import LoanCheck.Number.Binary64

/-!
The shortest decimal that reads back as a given double, and its text.

A double stands for the interval of reals that round to it.  On the grid of
decimals with `n` significant digits only the two neighbours of the value can
be the nearest point of that interval, so the first grid with a neighbour
inside gives the fewest digits.
-/

namespace LoanCheck

/-- The number `digits * 10 ^ power`. -/
structure Decimal where
  digits : Nat
  power : Int
deriving DecidableEq, Repr

namespace Decimal

/-- Drop trailing zeros of the digits; `fuel` bounds how many. -/
def trim : Nat → Nat → Int → Decimal
  | 0, digits, power => ⟨digits, power⟩
  | fuel + 1, digits, power =>
      if digits ≠ 0 ∧ digits % 10 = 0 then trim fuel (digits / 10) (power + 1)
      else ⟨digits, power⟩

end Decimal

namespace Binary64

/-- The reals that round to a positive double, as numerators over a common
denominator, with the value itself. -/
structure Interval where
  low : Nat
  value : Nat
  high : Nat
  denominator : Nat
  /-- Whether the ends themselves round to the double. -/
  closed : Bool

/-- The rounding interval of `significand * 2 ^ exponent`.  Below a power of
two the gap to the previous double is half as wide. -/
def interval (significand : Nat) (exponent : Int) : Interval :=
  let unit := exponent - 2
  let below := if significand = hiddenBit ∧ leastExponent < exponent then 1 else 2
  let factor := if unit < 0 then 1 else Nat.pow 2 unit.toNat
  { low := (4 * significand - below) * factor
    value := 4 * significand * factor
    high := (4 * significand + 2) * factor
    denominator := if unit < 0 then Nat.pow 2 (-unit).toNat else 1
    closed := significand % 2 == 0 }

namespace Interval

/-- Numerator and denominator of `value / 10 ^ power`. -/
def overPower (bounds : Interval) (numerator : Nat) (power : Int) : Nat × Nat :=
  if power < 0 then (numerator * Nat.pow 10 (-power).toNat, bounds.denominator)
  else (numerator, bounds.denominator * Nat.pow 10 power.toNat)

/-- Whether `digits * 10 ^ power` lies in the interval. -/
def contains (bounds : Interval) (digits : Nat) (power : Int) : Bool :=
  let (low, unit) := bounds.overPower bounds.low power
  let (high, _) := bounds.overPower bounds.high power
  let point := digits * unit
  if bounds.closed then low ≤ point && point ≤ high else low < point && point < high

/-- The least `power` with `value < 10 ^ power`. -/
def magnitude (bounds : Interval) : Int :=
  if bounds.denominator ≤ bounds.value then
    (Nat.toDigits 10 (bounds.value / bounds.denominator)).length
  else
    let size := (Nat.toDigits 10 (bounds.denominator / bounds.value)).length
    if bounds.value * Nat.pow 10 (size - 1) = bounds.denominator then 2 - size else 1 - size

/-- The neighbour of the value on the grid of multiples of `10 ^ power` that
rounds to the double; of two such the nearer, and of a tie the even one. -/
def neighbour? (bounds : Interval) (power : Int) : Option Nat :=
  let (value, unit) := bounds.overPower bounds.value power
  let down := value / unit
  let up := down + 1
  match bounds.contains down power, bounds.contains up power with
  | true, true => some (roundHalfEven value unit)
  | true, false => some down
  | false, true => some up
  | false, false => none

/-- Search the grids with `17 - remaining` digits and more. -/
def search (bounds : Interval) (magnitude : Int) : Nat → Decimal
  | 0 =>
      let (value, unit) := bounds.overPower bounds.value (magnitude - 17)
      ⟨roundHalfEven value unit, magnitude - 17⟩
  | remaining + 1 =>
      let power := magnitude - (17 - (remaining + 1 : Nat))
      match bounds.neighbour? power with
      | some digits => ⟨digits, power⟩
      | none => bounds.search magnitude remaining

end Interval

/-- The shortest decimal that reads back as `significand * 2 ^ exponent`. -/
def shortest (significand : Nat) (exponent : Int) : Decimal :=
  if significand = 0 then ⟨0, 0⟩
  else
    let bounds := interval significand exponent
    let found := bounds.search bounds.magnitude 16
    Decimal.trim 18 found.digits found.power

/-- How a double is written: where positional notation ends, and how many
digits an exponent has at least. -/
structure Format where
  leastPositional : Int
  greatestPositional : Int
  exponentWidth : Nat
  infinity : String
  notANumber : String

/-- Pad with zeros on the left. -/
def padded (width number : Nat) : List Char :=
  let digits := Nat.toDigits 10 number
  List.replicate (width - digits.length) '0' ++ digits

/-- Write a positive or zero decimal.  `scale` is the exponent of the first
digit, so the number is a digit before the point times `10 ^ scale`. -/
def writeDecimal (format : Format) (number : Decimal) : List Char :=
  let digits := Nat.toDigits 10 number.digits
  let scale : Int := number.power + digits.length - 1
  if scale < format.leastPositional ∨ format.greatestPositional < scale then
    let fraction := digits.drop 1
    digits.take 1 ++ (if fraction.isEmpty then [] else '.' :: fraction) ++ 'e' ::
      (if scale < 0 then '-' else '+') :: padded format.exponentWidth scale.natAbs
  else if scale < 0 then
    '0' :: '.' :: (List.replicate (-scale - 1).toNat '0' ++ digits)
  else
    let whole := scale.toNat + 1
    let fraction := digits.drop whole
    digits.take whole ++ List.replicate (whole - digits.length) '0' ++ '.' ::
      (if fraction.isEmpty then ['0'] else fraction)

/-- The text of a double: the fewest digits that read back. -/
def write (format : Format) : Binary64 → List Char
  | .finite negative significand exponent =>
      (if negative then ['-'] else []) ++ writeDecimal format (shortest significand exponent)
  | .infinite negative => (if negative then ['-'] else []) ++ format.infinity.toList
  | .notANumber => format.notANumber.toList

end Binary64

end LoanCheck
