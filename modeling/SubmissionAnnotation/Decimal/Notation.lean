import SubmissionAnnotation.Decimal.Shortest

/-!
# How a double is written

A layout decides which exponents are written with all places and which with a power of ten. The
digits themselves are the shortest that read back.
-/
namespace SubmissionAnnotation

/-- The decisions of one number format. -/
structure NumberLayout where
  /-- The smallest decimal exponent that is written with all places. -/
  minPlain : Int
  /-- The largest decimal exponent that is written with all places. -/
  maxPlain : Int
  /-- What follows a whole number that is written with all places. -/
  wholeSuffix : String
  /-- What stands before a power of ten that is not negative. -/
  powerSign : String

namespace NumberLayout

/-- A number with all its places: the digits, and where the point stands before or behind them. -/
def plain (layout : NumberLayout) (digits : String) (exponent : Int) : String :=
  let count : Int := digits.length
  if exponent < 0 then
    "0." ++ "".pushn '0' (-exponent - 1).toNat ++ digits
  else if count ≤ exponent + 1 then
    digits.pushn '0' (exponent + 1 - count).toNat ++ layout.wholeSuffix
  else
    let whole := (exponent + 1).toNat
    (digits.take whole).toString ++ "." ++ (digits.drop whole).toString

/-- A number as one digit before the point and a power of ten. -/
def scientific (layout : NumberLayout) (digits : String) (exponent : Int) : String :=
  let rest := (digits.drop 1).toString
  let mantissa := (digits.take 1).toString ++ if rest.isEmpty then "" else "." ++ rest
  let power := if exponent < 0 then toString exponent else layout.powerSign ++ toString exponent
  mantissa ++ "e" ++ power

/-- The text of a finite double. -/
def write (layout : NumberLayout) (x : Binary64) : String :=
  let d := Decimal.shortest x
  let digits := toString d.digits
  let exponent : Int := d.power + digits.length - 1
  let text :=
    if layout.minPlain ≤ exponent && exponent ≤ layout.maxPlain then layout.plain digits exponent
    else layout.scientific digits exponent
  if x.isNegative then "-" ++ text else text

end NumberLayout

end SubmissionAnnotation
