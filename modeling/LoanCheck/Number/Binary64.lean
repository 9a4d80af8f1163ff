/-!
Double-precision numbers kept exactly, as a sign, an integer significand and a
power of two.  A decimal is read by rounding its exact ratio to the nearest
such number, a half going to the even significand.
-/

namespace LoanCheck

/-- A double-precision number.  The finite value is `significand * 2 ^ exponent`. -/
inductive Binary64 where
  | finite (negative : Bool) (significand : Nat) (exponent : Int)
  | infinite (negative : Bool)
  | notANumber
deriving DecidableEq, Repr, Inhabited

namespace Binary64

/-- The exponent shared by zero and the subnormal numbers. -/
def leastExponent : Int := -1074

/-- The exponent of the largest finite numbers. -/
def greatestExponent : Int := 971

/-- Two to the power 52.  Significands of normal numbers lie in
`[hiddenBit, 2 * hiddenBit)`. -/
def hiddenBit : Nat := 0x10000000000000

def zero (negative : Bool) : Binary64 :=
  .finite negative 0 leastExponent

/-- Divide and round to the nearest integer, a half going to the even one. -/
def roundHalfEven (numerator denominator : Nat) : Nat :=
  let quotient := numerator / denominator
  let twice := 2 * (numerator % denominator)
  if twice < denominator then quotient
  else if denominator < twice then quotient + 1
  else if quotient % 2 = 0 then quotient
  else quotient + 1

/-- The ratio `numerator / denominator` divided by `2 ^ exponent`. -/
def scaled (numerator denominator : Nat) (exponent : Int) : Nat × Nat :=
  if exponent < 0 then (numerator * Nat.pow 2 (-exponent).toNat, denominator)
  else (numerator, denominator * Nat.pow 2 exponent.toNat)

/-- The floor of the binary logarithm of a positive ratio. -/
def floorLog2 (numerator denominator : Nat) : Int :=
  let estimate : Int := (Nat.log2 numerator : Int) - Nat.log2 denominator
  let (upper, lower) := scaled numerator denominator estimate
  if lower ≤ upper then estimate else estimate - 1

/-- The double nearest to a ratio of naturals. -/
def ofRatio (negative : Bool) (numerator denominator : Nat) : Binary64 :=
  if numerator = 0 then zero negative
  else
    let exponent := max (floorLog2 numerator denominator - 52) leastExponent
    let (upper, lower) := scaled numerator denominator exponent
    let rounded := roundHalfEven upper lower
    let (significand, exponent) :=
      if rounded = 2 * hiddenBit then (hiddenBit, exponent + 1) else (rounded, exponent)
    if greatestExponent < exponent then .infinite negative
    else .finite negative significand exponent

/-- The double nearest to `coefficient * 10 ^ power`.  Magnitudes far outside
the range of doubles are settled by the number of digits alone. -/
def ofDecimal (negative : Bool) (coefficient : Nat) (power : Int) : Binary64 :=
  let size : Int := (Nat.toDigits 10 coefficient).length + power
  if coefficient = 0 ∨ size < -330 then zero negative
  else if 310 < size then .infinite negative
  else if power < 0 then ofRatio negative coefficient (Nat.pow 10 (-power).toNat)
  else ofRatio negative (coefficient * Nat.pow 10 power.toNat) 1

/-- The exact value of a finite double. -/
def toRat? : Binary64 → Option Rat
  | .finite negative significand exponent =>
      let signed : Int := if negative then -(significand : Int) else significand
      let (numerator, denominator) :=
        if exponent < 0 then (signed, Nat.pow 2 (-exponent).toNat)
        else (signed * Nat.pow 2 exponent.toNat, 1)
      some (mkRat numerator denominator)
  | .infinite _ => none
  | .notANumber => none

/-- Zero of either sign. -/
def isZero : Binary64 → Bool
  | .finite _ significand _ => significand == 0
  | .infinite _ => false
  | .notANumber => false

end Binary64

end LoanCheck
