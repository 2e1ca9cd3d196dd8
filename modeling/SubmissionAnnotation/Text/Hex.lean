/-!
# Hexadecimal digits

Lower-case digits are written; both cases are read.
-/
namespace SubmissionAnnotation.Hex

/-- The digit of a value below sixteen. -/
def digit (n : Nat) : Char :=
  Char.ofNat (if n < 10 then n + 48 else n + 87)

/-- Exactly `count` digits, the most significant first. -/
def fixed : (count : Nat) → Nat → List Char
  | 0, _ => []
  | count + 1, n => fixed count (n / 16) ++ [digit (n % 16)]

/-- As many digits as the number needs, at least one. -/
def shortest (n : Nat) : String :=
  String.ofList (Nat.toDigits 16 n)

def value? (c : Char) : Option Nat :=
  let n := c.toNat
  if 48 ≤ n && n ≤ 57 then some (n - 48)
  else if 97 ≤ n && n ≤ 102 then some (n - 87)
  else if 65 ≤ n && n ≤ 70 then some (n - 55)
  else none

/-- The number that a list of digits writes. -/
def parse? (digits : List Char) : Option Nat :=
  digits.foldlM (fun n c => (value? c).map (16 * n + ·)) 0

@[simp] theorem length_fixed (count n : Nat) : (fixed count n).length = count := by
  induction count generalizing n with
  | zero => rfl
  | succ count ih => simp [fixed, ih]

end SubmissionAnnotation.Hex
