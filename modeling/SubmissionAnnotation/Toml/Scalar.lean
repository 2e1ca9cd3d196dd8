import SubmissionAnnotation.Instant
import SubmissionAnnotation.Text.Hex
import SubmissionAnnotation.Toml

/-!
# Numbers, dates and truth values

A value without quotes and brackets is one run of letters, digits and signs. The whole run decides
what it is: a truth value, a date, a whole number or a float, each with a form of its own and none a
beginning of another.
-/
namespace SubmissionAnnotation.Toml.Scalar

def ofBool? : List Char → Option Bool
  | ['t', 'r', 'u', 'e'] => some true
  | ['f', 'a', 'l', 's', 'e'] => some false
  | _ => none

/-! ### Dates and times -/

/-- A number of exactly `count` digits that lies between two bounds, and what follows it. -/
def fixed? (count low high : Nat) (s : List Char) : Option (Nat × List Char) := do
  let digits := s.take count
  guard (digits.length = count && digits.all Char.isDigit)
  let n := digits.foldl (fun n c => 10 * n + (c.toNat - 48)) 0
  guard (low ≤ n && n ≤ high)
  return (n, s.drop count)

/-- What follows the given character. -/
def after? (c : Char) : List Char → Option (List Char)
  | [] => none
  | d :: rest => if d = c then some rest else none

/-- What follows a date. -/
def afterDate? (s : List Char) : Option (List Char) := do
  let (year, s) ← fixed? 4 0 9999 s
  let (month, s) ← after? '-' s >>= fixed? 2 1 12
  let (_, s) ← after? '-' s >>= fixed? 2 1 (CivilDate.daysInMonth year month)
  return s

/-- What follows the fraction of a second, which may be missing. -/
def afterFraction? : List Char → Option (List Char)
  | '.' :: rest => do
    guard !(rest.takeWhile Char.isDigit).isEmpty
    return rest.dropWhile Char.isDigit
  | s => some s

/-- What follows a time of day; a minute may have a leap second. -/
def afterTime? (s : List Char) : Option (List Char) := do
  let (_, s) ← fixed? 2 0 23 s
  let (_, s) ← after? ':' s >>= fixed? 2 0 59
  let (_, s) ← after? ':' s >>= fixed? 2 0 60
  afterFraction? s

/-- What follows the distance from universal time, which may be missing. -/
def afterOffset? : List Char → Option (List Char)
  | 'Z' :: s => some s
  | 'z' :: s => some s
  | [] => some []
  | sign :: s => do
    guard (sign = '+' || sign = '-')
    let (_, s) ← fixed? 2 0 23 s
    let (_, s) ← after? ':' s >>= fixed? 2 0 59
    return s

def isDate (s : List Char) : Bool :=
  afterDate? s = some []

/-- A date, a time of day, or both with a letter or a space between them. -/
def isDateTime (s : List Char) : Bool :=
  match afterDate? s with
  | some [] => true
  | some (c :: rest) =>
    (c = 'T' || c = 't' || c = ' ') && (afterTime? rest >>= afterOffset?) = some []
  | none => afterTime? s = some []

/-! ### Numbers -/

/-- The digits of a run in which single underscores may stand between digits. -/
def digits? (isDigit : Char → Bool) : List Char → Option (List Char)
  | [] => none
  | [c] => if isDigit c then some [c] else none
  | c :: '_' :: rest => if isDigit c then (digits? isDigit rest).map (c :: ·) else none
  | c :: rest => if isDigit c then (digits? isDigit rest).map (c :: ·) else none

/-- The number that digits write in a base. -/
def ofDigits? (base : Nat) (digits : List Char) : Option Nat :=
  digits.foldlM (fun n c => do
    let d ← Hex.value? c
    guard (d < base)
    return base * n + d) 0

def isHexDigit (c : Char) : Bool :=
  (Hex.value? c).isSome

/-- Decimal digits that do not begin with a zero, except for zero itself. -/
def plainDigits? (s : List Char) : Option (List Char) := do
  let digits ← digits? Char.isDigit s
  guard (digits.head? ≠ some '0' || s.length = 1)
  return digits

/-- A run with its sign taken off. -/
def splitSign : List Char → Bool × List Char
  | '-' :: s => (true, s)
  | '+' :: s => (false, s)
  | s => (false, s)

/-- One more than the largest whole number. -/
def integerBound : Nat := 0x8000000000000000

/-- A whole number, in decimal with a sign or in base sixteen, eight or two without one. -/
def ofInteger? (s : List Char) : Option Int := do
  let based (base : Nat) (rest : List Char) : Option Int := do
    let n ← digits? isHexDigit rest >>= ofDigits? base
    guard (n < integerBound)
    return n
  match s with
  | '0' :: 'x' :: rest => based 16 rest
  | '0' :: 'o' :: rest => based 8 rest
  | '0' :: 'b' :: rest => based 2 rest
  | _ =>
    let (negative, rest) := splitSign s
    let n ← plainDigits? rest >>= ofDigits? 10
    guard (n < integerBound || (negative && n = integerBound))
    return if negative then -n else n

/-- Splits a run before the first character that satisfies `p`. -/
def splitBefore (p : Char → Bool) (s : List Char) : List Char × List Char :=
  (s.takeWhile fun c => !p c, s.dropWhile fun c => !p c)

/-- The power of ten of a float, and whether there is one. -/
def exponent? : List Char → Option (Option Int)
  | [] => some none
  | _ :: rest => do
    let (negative, s) := splitSign rest
    let n ← digits? Char.isDigit s >>= ofDigits? 10
    return some (if negative then -n else n)

/-- The digits behind the point of a float, and whether there is one. -/
def fraction? : List Char → Option (Option (List Char))
  | [] => some none
  | _ :: rest => (digits? Char.isDigit rest).map some

/-- A float with a fraction or a power of ten; one that is too large is refused
if it is positive. -/
def ofDecimal? (s : List Char) : Option Binary64 := do
  let (negative, unsigned) := splitSign s
  let (mantissa, power) := splitBefore (fun c => c = 'e' || c = 'E') unsigned
  let (whole, behindPoint) := splitBefore (· = '.') mantissa
  let wholeDigits ← plainDigits? whole
  let fraction ← fraction? behindPoint
  let exponent ← exponent? power
  guard (fraction.isSome || exponent.isSome)
  let places := fraction.getD []
  let n ← ofDigits? 10 (wholeDigits ++ places)
  let x := Binary64.nearestDecimal n (exponent.getD 0 - places.length)
  guard (negative || !x.isInfinite)
  return if negative then x.negate else x

def ofFloat? (s : List Char) : Option Binary64 :=
  let (negative, unsigned) := splitSign s
  let signed (x : Binary64) : Option Binary64 := some (if negative then x.negate else x)
  match unsigned with
  | ['i', 'n', 'f'] => signed (.ofMagnitude Binary64.infinity)
  | ['n', 'a', 'n'] => signed .notANumber
  | _ => ofDecimal? s

/-- The value that a run of characters writes. -/
def parse? (s : List Char) : Option Toml :=
  match ofBool? s with
  | some b => some (.bool b)
  | none =>
    if isDateTime s then some (.dateTime (String.ofList s))
    else
      match ofInteger? s with
      | some n => some (.integer n)
      | none => (ofFloat? s).map .float

end SubmissionAnnotation.Toml.Scalar
