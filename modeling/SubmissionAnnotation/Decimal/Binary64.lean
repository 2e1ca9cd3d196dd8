/-!
# Binary64 numbers as bits

A double is kept as its 64 bits, so that two of them are equal exactly when they print and read
alike. A finite one stands for `± significand · 2 ^ exponent`; `ofRatio` is rounding of an exact
ratio to the nearest double, a half going to the even neighbour, and the arithmetic that reading
decimals needs is an exact ratio followed by that rounding.
-/
namespace SubmissionAnnotation

def twoPow (n : Nat) : Nat := Nat.pow 2 n

def tenPow (n : Nat) : Nat := Nat.pow 10 n

/-- A binary64 number, given by its bits: sign, eleven bits of exponent,
fifty-two bits of fraction. -/
structure Binary64 where
  bits : UInt64
  deriving DecidableEq, Repr

namespace Binary64

/-- The number of bits of the fraction. -/
def fractionBits : Nat := 52

/-- The exponent of the last place of the smallest numbers. -/
def minExponent : Int := -1074

/-- The bits of positive infinity, the first magnitude that is out of range. -/
def infinity : Nat := 0x7FF * twoPow fractionBits

def isNegative (x : Binary64) : Bool :=
  x.bits.toNat / twoPow 63 = 1

def magnitude (x : Binary64) : Nat :=
  x.bits.toNat % twoPow 63

def isZero (x : Binary64) : Bool :=
  x.magnitude = 0

/-- The biased exponent; zero marks the numbers without a leading one. -/
def exponentField (x : Binary64) : Nat :=
  x.magnitude / twoPow fractionBits

def fraction (x : Binary64) : Nat :=
  x.magnitude % twoPow fractionBits

def significand (x : Binary64) : Nat :=
  if x.exponentField = 0 then x.fraction else x.fraction + twoPow fractionBits

def exponent (x : Binary64) : Int :=
  minExponent + ((x.exponentField - 1 : Nat) : Int)

def ofMagnitude (magnitude : Nat) : Binary64 :=
  ⟨magnitude.toUInt64⟩

def negate (x : Binary64) : Binary64 :=
  ⟨x.bits ^^^ 0x8000000000000000⟩

/-- The integer nearest to `num / den`, a half going to the even neighbour. -/
def divNearestEven (num den : Nat) : Nat :=
  let quotient := num / den
  let twice := 2 * (num % den)
  if twice > den || (twice == den && quotient % 2 == 1) then quotient + 1 else quotient

/-- The largest `e` with `2 ^ e ≤ num / den`, for positive `num` and `den`. -/
def floorLog2 (num den : Nat) : Int :=
  let estimate : Int := (num.log2 : Int) - (den.log2 : Int)
  if den * twoPow estimate.toNat ≤ num * twoPow (-estimate).toNat then estimate else estimate - 1

/-- The magnitude of the double nearest to `num / den`; a ratio that is too large gives infinity. -/
def magnitudeOfRatio (num den : Nat) : Nat :=
  if num = 0 then 0
  else
    let last := max (floorLog2 num den - fractionBits) minExponent
    let digits := divNearestEven (num * twoPow (-last).toNat) (den * twoPow last.toNat)
    min infinity ((last - minExponent).toNat * twoPow fractionBits + digits)

def ofRatio (num den : Nat) : Binary64 :=
  ofMagnitude (magnitudeOfRatio num den)

def ofNat (n : Nat) : Binary64 :=
  ofRatio n 1

def isInfinite (x : Binary64) : Bool :=
  x.magnitude = infinity

/-- The rounded product of two magnitudes. -/
def mul (x y : Binary64) : Binary64 :=
  let e := x.exponent + y.exponent
  ofRatio (x.significand * y.significand * twoPow e.toNat) (twoPow (-e).toNat)

/-- The rounded quotient of two magnitudes. -/
def div (x y : Binary64) : Binary64 :=
  let e := x.exponent - y.exponent
  ofRatio (x.significand * twoPow e.toNat) (y.significand * twoPow (-e).toNat)

/-- The double nearest to a power of ten. -/
def powerOfTen (n : Nat) : Binary64 :=
  ofNat (tenPow n)

/-- The largest power of ten that is finite. -/
def maxPowerOfTen : Nat := 308

/-- Divides by `10 ^ n`, by one factor of at most `10 ^ 308` after the other, each step rounded. -/
def scaleDown (x : Binary64) (n : Nat) : Binary64 :=
  if n ≤ maxPowerOfTen then x.div (powerOfTen n)
  else if x.isZero then x
  else scaleDown (x.div (powerOfTen maxPowerOfTen)) (n - maxPowerOfTen)
termination_by n
decreasing_by simp only [maxPowerOfTen] at *; omega

/--
The double read from `digits · 10 ^ scale`, or nothing if it is out of range. The digits are rounded
first and scaled by a rounded power of ten, so digits that are exact in a double and a power up to
`10 ^ 22` give the nearest double.
-/
def ofDecimal? (digits : Nat) (scale : Int) : Option Binary64 :=
  let x := ofNat digits
  match scale with
  | .negSucc n => some (x.scaleDown (n + 1))
  | .ofNat n =>
    if maxPowerOfTen < n then if digits = 0 then some x else none
    else
      let scaled := x.mul (powerOfTen n)
      if scaled.isInfinite then none else some scaled

/-- No double lies beyond this power of ten, in either direction. -/
def maxDecimalExponent : Int := 400

/-- The double nearest to `digits · 10 ^ scale`, which is infinity if that is out of range. -/
def nearestDecimal (digits : Nat) (scale : Int) : Binary64 :=
  let magnitude := (Nat.toDigits 10 digits).length + scale
  if digits = 0 || magnitude < -maxDecimalExponent then ofMagnitude 0
  else if maxDecimalExponent < magnitude then ofMagnitude infinity
  else ofRatio (digits * tenPow scale.toNat) (tenPow (-scale).toNat)

/-- The bits of a value that is no number. -/
def notANumber : Binary64 := ofMagnitude 0x7FF8000000000000

end Binary64

end SubmissionAnnotation
