import SubmissionAnnotation.Decimal.Binary64

/-!
# The fewest decimal digits that read back

Every real between the midpoints to a double's two neighbours rounds to that double; the
midpoints themselves do if the significand is even. For one, two, … digits the two neighbours of
the double on the grid of decimals with so many digits are tested against that interval in exact
arithmetic. The first grid with a hit wins, of two hits the nearer, and of two hits at the same
distance the one that is even.
-/
namespace SubmissionAnnotation

/-- The decimal `digits · 10 ^ power`. -/
structure Decimal where
  digits : Nat
  power : Int
  deriving DecidableEq, Repr

namespace Decimal

def digitCount (n : Nat) : Nat :=
  (Nat.toDigits 10 n).length

/-- The largest `e` with `10 ^ e ≤ num / den`, for positive `num` and `den`. -/
def floorLog10 (num den : Nat) : Int :=
  let estimate : Int := (digitCount num : Int) - (digitCount den : Int)
  if den * tenPow estimate.toNat ≤ num * tenPow (-estimate).toNat then estimate else estimate - 1

/-- The reals that round to one double: `low / den` to `high / den`, around `value / den`. -/
structure Interval where
  low : Nat
  value : Nat
  high : Nat
  den : Nat
  closed : Bool

/-- The interval of a finite positive double, in quarters of its last place. -/
def Interval.around (x : Binary64) : Interval :=
  let quarter := x.exponent - 2
  let unit := twoPow quarter.toNat
  let middle := 4 * x.significand
  let narrow := x.fraction = 0 && 1 < x.exponentField
  { low := (middle - if narrow then 1 else 2) * unit
    value := middle * unit
    high := (middle + 2) * unit
    den := twoPow (-quarter).toNat
    closed := x.significand % 2 = 0 }

/-- The numerator of the decimal over the common denominator with which `scaled`
numerators compare. -/
def numerator (d : Decimal) (i : Interval) : Nat :=
  d.digits * tenPow d.power.toNat * i.den

def scaled (d : Decimal) (n : Nat) : Nat :=
  n * tenPow (-d.power).toNat

def within (d : Decimal) (i : Interval) : Bool :=
  let n := d.numerator i
  let low := d.scaled i.low
  let high := d.scaled i.high
  if i.closed then low ≤ n && n ≤ high else low < n && n < high

/-- The distance to the double itself, over the common denominator. -/
def distance (d : Decimal) (i : Interval) : Nat :=
  let n := d.numerator i
  let v := d.scaled i.value
  (n - v) + (v - n)

/-- The nearest decimal of the grid with `count` digits that lies in the interval, if one does. -/
def onGrid (i : Interval) (count : Nat) : Option Decimal :=
  let power := floorLog10 i.value i.den + 1 - count
  let below : Decimal :=
    ⟨i.value * tenPow (-power).toNat / (i.den * tenPow power.toNat), power⟩
  let above : Decimal := ⟨below.digits + 1, power⟩
  match below.within i, above.within i with
  | true, true =>
    let down := below.distance i
    let up := above.distance i
    if down < up || (down == up && below.digits % 2 == 0) then some below else some above
  | true, false => some below
  | false, true => some above
  | false, false => none

/-- Seventeen digits always read back. -/
def maxDigits : Nat := 17

/-- Moves the trailing zeros of the digits into the power. -/
def trimZeros (d : Decimal) : Decimal :=
  if h : d.digits ≠ 0 ∧ d.digits % 10 = 0 then trimZeros ⟨d.digits / 10, d.power + 1⟩ else d
termination_by d.digits
decreasing_by exact Nat.div_lt_self (Nat.pos_of_ne_zero h.1) (by decide)

/-- The shortest decimal that reads back as the magnitude of a finite double. -/
def shortest (x : Binary64) : Decimal :=
  if x.isZero then ⟨0, 0⟩
  else
    let i := Interval.around x
    trimZeros (((List.range maxDigits).findSome? fun n => onGrid i (n + 1)).getD ⟨0, 0⟩)

end Decimal

end SubmissionAnnotation
