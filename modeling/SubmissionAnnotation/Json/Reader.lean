import SubmissionAnnotation.Json
import SubmissionAnnotation.Text.Hex
import SubmissionAnnotation.Text.Rest

/-!
# Reading JSON text

The reader works on the characters that are left and returns a shorter rest with every
value, so reading ends by the length of the text. A failed reading tells a text that ended
too early from one that is wrong where it stands. Repeated members keep the place of the
first and the value of the last.
-/
namespace SubmissionAnnotation.Json

/-- Why a text is not a JSON document. -/
inductive ReadError where
  | endOfText
  | malformed
  deriving DecidableEq, Repr

/-- A value read from the front of a text, with the rest. -/
abbrev Reading (α : Type) (s : List Char) := Except ReadError (α × Rest s)

/-- At most so many arrays and objects lie inside one another. -/
def maxDepth : Nat := 127

def isSpace (c : Char) : Bool :=
  c = ' ' || c = '\n' || c = '\t' || c = '\r'

def skipSpace (s : List Char) : List Char :=
  s.dropWhile isSpace

theorem length_skipSpace_le (s : List Char) : (skipSpace s).length ≤ s.length :=
  (List.dropWhile_suffix _).length_le

theorem length_lt_of_skipSpace_eq {s rest : List Char} {c : Char} (h : skipSpace s = c :: rest) :
    rest.length < s.length := by
  have shorter := length_skipSpace_le s
  rw [h] at shorter
  exact shorter

/-- The error of a text that has no character where one is needed, or the wrong one. -/
def unexpected : List Char → ReadError
  | [] => .endOfText
  | _ :: _ => .malformed

/-- A literal name whose first letter was read already. -/
def readName (value : Json) : (letters : List Char) → (s : List Char) →
    Except ReadError (Json × Left s)
  | [], s => .ok (value, .all s)
  | _ :: _, [] => .error .endOfText
  | letter :: letters, c :: s =>
    if c = letter then
      (readName value letters s).map fun (v, r) => (v, .behind _ r)
    else .error .malformed

/-- The code unit written by the next four hexadecimal digits. -/
def readUnit (s : List Char) : Except ReadError (Nat × Left s) :=
  if (String.ofList (s.take 4)).utf8ByteSize < 4 then .error .endOfText
  else
    match Hex.parse? (s.take 4) with
    | some n => .ok (n, .drop 4 s)
    | none => .error .malformed

def isHighSurrogate (n : Nat) : Bool := 0xD800 ≤ n && n ≤ 0xDBFF

def isLowSurrogate (n : Nat) : Bool := 0xDC00 ≤ n && n ≤ 0xDFFF

/-- The character of an escape with code units; a high surrogate needs a low one behind it. -/
def readCodePoint (s : List Char) :
    Except ReadError (Char × Left s) := do
  let (high, ⟨afterHigh, shorter⟩) ← readUnit s
  if isLowSurrogate high then throw .malformed
  if ¬isHighSurrogate high then return (Char.ofNat high, ⟨afterHigh, shorter⟩)
  match afterHigh, shorter with
  | '\\' :: 'u' :: t, shorter =>
    let (low, ⟨afterLow, shorter'⟩) ← readUnit t
    if ¬isLowSurrogate low then throw .malformed
    let code := (high - 0xD800) * 0x400 + (low - 0xDC00) + 0x10000
    return (Char.ofNat code, ⟨afterLow, by simp at shorter; omega⟩)
  | ['\\'], _ => throw .endOfText
  | t, _ => throw (unexpected t)

/-- The character that an escape stands for; the backslash was read already. -/
def readEscape : (s : List Char) → Reading Char s
  | [] => .error .endOfText
  | 'u' :: s => (readCodePoint s).map fun (c, r) => (c, .ofLeft _ r)
  | c :: s =>
    let plain (c : Char) : Reading Char (_ :: s) := .ok (c, .tail _ s)
    match c with
    | '"' => plain '"'
    | '\\' => plain '\\'
    | '/' => plain '/'
    | 'b' => plain '\x08'
    | 'f' => plain '\x0c'
    | 'n' => plain '\n'
    | 'r' => plain '\r'
    | 't' => plain '\t'
    | _ => .error .malformed

/-- A string up to its closing quote; the opening one was read already. -/
def readString (read : List Char) (s : List Char) : Reading String s :=
  match s with
  | [] => .error .endOfText
  | '"' :: rest => .ok (String.ofList read.reverse, .tail _ rest)
  | '\\' :: rest => do
    let (c, ⟨r, hr⟩) ← readEscape rest
    let (text, ⟨t, ht⟩) ← readString (c :: read) r
    return (text, ⟨t, by simp; omega⟩)
  | c :: rest =>
    if c.toNat < 32 then .error .malformed
    else do
      let (text, ⟨t, ht⟩) ← readString (c :: read) rest
      return (text, ⟨t, by simp; omega⟩)
termination_by s.length

def digitValue (c : Char) : Nat :=
  c.toNat - 48

/-- The digits at the front of a text, and the rest. -/
def spanDigits (s : List Char) : List Char × List Char :=
  (s.takeWhile Char.isDigit, s.dropWhile Char.isDigit)

theorem length_spanDigits_le (s : List Char) : (spanDigits s).2.length ≤ s.length :=
  (List.dropWhile_suffix _).length_le

/-- The largest number of 64 bits. -/
def maxWord : Nat := 0xFFFFFFFFFFFFFFFF

/-- Digits taken into a number as long as it fits 64 bits, and how many were left over. -/
def accumulate (n : Nat) : List Char → Nat × Nat
  | [] => (n, 0)
  | c :: rest =>
    if maxWord < 10 * n + digitValue c then (n, rest.length + 1)
    else accumulate (10 * n + digitValue c) rest

/-- The digits behind a decimal point, of which there must be one; no point means no digits. -/
def readFraction : (s : List Char) →
    Except ReadError (Option (List Char) × Left s)
  | '.' :: rest =>
    if (spanDigits rest).1.isEmpty then .error (unexpected (spanDigits rest).2)
    else .ok (some (spanDigits rest).1,
      ⟨(spanDigits rest).2, Nat.le_succ_of_le (length_spanDigits_le rest)⟩)
  | s => .ok (none, .all s)

/-- A sign at the front of a text: whether it is a minus, and the rest. -/
def readSign : (s : List Char) → Bool × Left s
  | '+' :: rest => (false, .tail _ rest)
  | '-' :: rest => (true, .tail _ rest)
  | s => (false, .all s)

/-- The power of ten behind an `e`, if there is one. -/
def readExponent (s : List Char) :
    Except ReadError (Option Int × Left s) :=
  match s with
  | [] => .ok (none, .all [])
  | c :: rest =>
    if c = 'e' || c = 'E' then
      let (negative, ⟨t, ht⟩) := readSign rest
      let digits := (spanDigits t).1
      if digits.isEmpty then .error (unexpected (spanDigits t).2)
      else
        let n := digits.foldl (fun n d => 10 * n + digitValue d) 0
        .ok (some (if negative then -n else n),
          ⟨(spanDigits t).2, by have := length_spanDigits_le t; simp; omega⟩)
    else .ok (none, .all (c :: rest))

/-- A double with a sign, unless it is out of range. -/
def signedDouble (negative : Bool) (digits : Nat) (scale : Int) : Except ReadError JsonNumber :=
  match Binary64.ofDecimal? digits scale with
  | some x => .ok (.double (if negative then x.negate else x))
  | none => .error .malformed

/-- One more than the largest signed number of 64 bits. -/
def signedBound : Nat := 0x8000000000000000

/--
A whole number stays one if it fits the signed or the unsigned words of 64 bits; a larger one and
the negative zero become doubles.
-/
def wholeNumber (negative : Bool) (n : Nat) : JsonNumber :=
  if ¬negative then .integer n
  else if 0 < n ∧ n ≤ signedBound then .integer (-n)
  else .double (Binary64.ofNat n).negate

/-- A number whose sign was read already. -/
def readNumber (negative : Bool) (s : List Char) : Reading JsonNumber s :=
  match h : spanDigits s with
  | ([], _) => .error (unexpected s)
  | ('0' :: _ :: _, _) => .error .malformed
  | (first :: more, r) => do
    let (n, dropped) := accumulate 0 (first :: more)
    let (fraction, ⟨r₁, h₁⟩) ← readFraction r
    let (exponent, ⟨r₂, h₂⟩) ← readExponent r₁
    let shorter : r₂.length < s.length := by
      have split : s.takeWhile Char.isDigit ++ s.dropWhile Char.isDigit = s :=
        List.takeWhile_append_dropWhile
      simp only [spanDigits, Prod.mk.injEq] at h
      rw [h.1, h.2] at split
      rw [← split]
      simp
      omega
    if fraction.isNone && exponent.isNone && dropped = 0 then
      return (wholeNumber negative n, ⟨r₂, shorter⟩)
    let places := fraction.getD []
    let (digits, left) := accumulate n places
    let scale : Int := dropped - (places.length - left : Nat) + exponent.getD 0
    let x ← signedDouble negative digits scale
    return (x, ⟨r₂, shorter⟩)

/-- What the first character of a value says about it. -/
inductive Start where
  /-- A literal name, with the letters that have to follow. -/
  | name (letters : List Char) (value : Json)
  | minus
  | digit
  | quote
  | bracket
  | brace
  | other

def Start.ofChar : Char → Start
  | 'n' => .name ['u', 'l', 'l'] .null
  | 't' => .name ['r', 'u', 'e'] (.bool true)
  | 'f' => .name ['a', 'l', 's', 'e'] (.bool false)
  | '-' => .minus
  | '"' => .quote
  | '[' => .bracket
  | '\x7b' => .brace
  | c => if c.isDigit then .digit else .other

/-- The rest behind a character that may have white space before it. -/
def readMark (mark : Char) (s : List Char) : Option (Rest s) :=
  match h : skipSpace s with
  | [] => none
  | c :: r => if c = mark then some ⟨r, length_lt_of_skipSpace_eq h⟩ else none

/-- A character that has to come next, after any white space. -/
def expectMark (mark : Char) (s : List Char) : Except ReadError (Rest s) :=
  match readMark mark s with
  | some r => .ok r
  | none => .error (unexpected (skipSpace s))

mutual

/-- A value, after any white space. -/
def readValue (depth : Nat) (s : List Char) : Reading Json s :=
  match h : skipSpace s with
  | [] => .error .endOfText
  | c :: rest =>
    have shorter : rest.length < s.length := length_lt_of_skipSpace_eq h
    let keep (v : Json) (r : List Char) (hr : r.length ≤ rest.length) : Json × Rest s :=
      (v, ⟨r, Nat.lt_of_le_of_lt hr shorter⟩)
    match Start.ofChar c with
    | .name letters value => (readName value letters rest).map fun (v, r) => keep v r.1 r.2
    | .minus => (readNumber true rest).map fun (n, r) => keep (.number n) r.1 (Nat.le_of_lt r.2)
    | .digit =>
      (readNumber false (c :: rest)).map fun (n, r) =>
        keep (.number n) r.1 (Nat.le_of_lt_succ r.2)
    | .quote => (readString [] rest).map fun (t, r) => keep (.string t) r.1 (Nat.le_of_lt r.2)
    | .bracket =>
      if depth = 0 then .error .malformed
      else
        match readMark ']' rest with
        | some r => .ok (keep (.array []) r.1 (Nat.le_of_lt r.2))
        | none => (readItems (depth - 1) [] rest).map fun (v, r) => keep v r.1 (Nat.le_of_lt r.2)
    | .brace =>
      if depth = 0 then .error .malformed
      else
        match readMark '\x7d' rest with
        | some r => .ok (keep (.object .empty) r.1 (Nat.le_of_lt r.2))
        | none =>
          (readMembers (depth - 1) .empty rest).map fun (v, r) => keep v r.1 (Nat.le_of_lt r.2)
    | .other => .error .malformed
termination_by (s.length, 0)

/-- The items of an array from one item on, up to the closing bracket. -/
def readItems (depth : Nat) (read : List Json) (s : List Char) : Reading Json s := do
  let (item, ⟨r, hr⟩) ← readValue depth s
  match readMark ',' r with
  | some ⟨t, ht⟩ => do
    have shorter : t.length < s.length := Nat.lt_trans ht hr
    let (v, u) ← readItems depth (item :: read) t
    return (v, .trans ⟨t, shorter⟩ u)
  | none => do
    let t ← expectMark ']' r
    return (.array (item :: read).reverse, .trans ⟨r, hr⟩ t)
termination_by (s.length, 1)

/-- The members of an object from one member on, up to the closing brace. -/
def readMembers (depth : Nat) (read : OrderedMap Json) (s : List Char) : Reading Json s := do
  let ⟨afterQuote, h₁⟩ ← expectMark '"' s
  let (key, ⟨afterKey, h₂⟩) ← readString [] afterQuote
  let ⟨afterColon, h₃⟩ ← expectMark ':' afterKey
  have valueShorter : afterColon.length < s.length := by omega
  let (value, ⟨r, hr⟩) ← readValue depth afterColon
  have restShorter : r.length < s.length := Nat.lt_trans hr valueShorter
  match readMark ',' r with
  | some ⟨t, ht⟩ => do
    have shorter : t.length < s.length := Nat.lt_trans ht restShorter
    let (v, u) ← readMembers depth (read.insert key value) t
    return (v, .trans ⟨t, shorter⟩ u)
  | none => do
    let t ← expectMark '}' r
    return (.object (read.insert key value), .trans ⟨r, restShorter⟩ t)
termination_by (s.length, 1)

end

/-- The value of a whole text, with white space around it and nothing else. -/
def parse (text : String) : Except ReadError Json := do
  let (v, ⟨rest, _⟩) ← readValue maxDepth text.toList
  if (skipSpace rest).isEmpty then return v else throw .malformed

end SubmissionAnnotation.Json
