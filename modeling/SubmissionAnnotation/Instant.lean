/-!
# Instants and their stamps

An instant counts seconds from the start of 1970 in universal time. Its stamp names day and
second in the Gregorian calendar, which is carried on to all years before and after; the fraction
of the second is left off. A leap second is not counted: it is held as the second before it with
more than a whole second beyond that, and its stamp has the second number 60.
-/
namespace SubmissionAnnotation

structure Instant where
  /-- Whole seconds since the start of 1970, before it negative. -/
  seconds : Int
  /-- Billionths of a second beyond the whole seconds; in a leap second, a whole second more. -/
  nanos : Nat := 0
  deriving DecidableEq, Repr

structure CivilDate where
  year : Int
  month : Nat
  day : Nat
  deriving DecidableEq, Repr

namespace CivilDate

def isLeapYear (year : Int) : Bool :=
  year % 4 = 0 && (year % 100 ≠ 0 || year % 400 = 0)

def daysInMonth (year : Int) (month : Nat) : Nat :=
  if month = 2 then if isLeapYear year then 29 else 28
  else if month ∈ [4, 6, 9, 11] then 30
  else 31

/-- Days from the first of March of year zero to the first day of 1970. -/
def epochOffset : Int := 719468

/-- Days of four hundred years, after which the calendar repeats. -/
def daysPerEra : Int := 146097

/--
The date of a day counted from the first of 1970. Years are counted from March, so that
the leap day is the last of its year; within an era, the year is the quotient by 365 after
leap days were taken off.
-/
def ofDays (days : Int) : CivilDate :=
  let shifted := days + epochOffset
  let era := shifted / daysPerEra
  let dayOfEra := (shifted % daysPerEra).toNat
  let yearOfEra := (dayOfEra - dayOfEra / 1460 + dayOfEra / 36524 - dayOfEra / 146096) / 365
  let dayOfYear := dayOfEra - (365 * yearOfEra + yearOfEra / 4 - yearOfEra / 100)
  let marchMonth := (5 * dayOfYear + 2) / 153
  let day := dayOfYear - (153 * marchMonth + 2) / 5 + 1
  let month := if marchMonth < 10 then marchMonth + 3 else marchMonth - 9
  let year := (yearOfEra : Int) + era * 400 + if month ≤ 2 then 1 else 0
  ⟨year, month, day⟩

end CivilDate

namespace Instant

def nanosPerSecond : Nat := 1000000000

/-- The number of the second within its minute. -/
def secondOfMinute (t : Instant) : Nat :=
  let second := (t.seconds % 60).toNat
  if t.nanos < nanosPerSecond then second else second + 1

theorem secondOfMinute_of_leap {t : Instant} (last : t.seconds % 60 = 59)
    (leap : nanosPerSecond ≤ t.nanos) : t.secondOfMinute = 60 := by
  simp [secondOfMinute, last, Nat.not_lt.mpr leap]

def padded (width n : Nat) : String :=
  let digits := toString n
  "".pushn '0' (width - digits.length) ++ digits

/-- Four digits or more; years outside 0 to 9999 carry a sign. -/
def yearText (year : Int) : String :=
  if 0 ≤ year && year ≤ 9999 then padded 4 year.toNat
  else (if year < 0 then "-" else "+") ++ padded 4 year.natAbs

/-- The second of an instant as `YYYY-MM-DDTHH:MM:SSZ`. -/
def stamp (t : Instant) : String :=
  let date := CivilDate.ofDays (t.seconds / 86400)
  let second := (t.seconds % 86400).toNat
  yearText date.year ++ "-" ++ padded 2 date.month ++ "-" ++ padded 2 date.day ++ "T" ++
    padded 2 (second / 3600) ++ ":" ++ padded 2 (second / 60 % 60) ++ ":" ++
    padded 2 t.secondOfMinute ++ "Z"

end Instant

end SubmissionAnnotation
