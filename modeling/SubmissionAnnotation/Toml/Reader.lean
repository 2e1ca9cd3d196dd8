import SubmissionAnnotation.Toml.Scalar
import SubmissionAnnotation.Toml.Token

/-!
# Reading TOML text

The tokens of a document are read line by line: a line is a pair of key and value, or a header.
Values may reach over several lines. The sections that result are put together by `Toml.ofSections`;
a text is refused without a reason.
-/
namespace SubmissionAnnotation.Toml

/-- Something read from the front of the tokens, with the rest. -/
abbrev Reading (α : Type) (s : List Token) := Option (α × Rest s)

/-- Values lie inside one another, and keys have parts, up to so many. -/
def maxDepth : Nat := 79

namespace Token

def isBlank : Token → Bool
  | .blank _ => true
  | _ => false

/-- What may stand between the items of an array, and between lines. -/
def isTrivia : Token → Bool
  | .blank _ => true
  | .newline => true
  | .comment => true
  | _ => false

end Token

def skipBlank (s : List Token) : List Token :=
  s.dropWhile Token.isBlank

def skipTrivia (s : List Token) : List Token :=
  s.dropWhile Token.isTrivia

theorem length_skipBlank_le (s : List Token) : (skipBlank s).length ≤ s.length :=
  (List.dropWhile_suffix _).length_le

theorem length_skipTrivia_le (s : List Token) : (skipTrivia s).length ≤ s.length :=
  (List.dropWhile_suffix _).length_le

/-- Takes a mark from the front of the tokens. -/
def readMark (c : Char) : (s : List Token) → Option (Rest s)
  | .mark d :: rest => if d = c then some (.tail _ rest) else none
  | _ => none

/-- Takes a mark that may have blanks before it. -/
def readSpacedMark (c : Char) (s : List Token) : Option (Rest s) :=
  (readMark c (skipBlank s)).map (.ofLE (length_skipBlank_le s))

/-! ### Keys -/

def isKeyChar (c : Char) : Bool :=
  c.isAlphanum || c = '_' || c = '-'

/-- One part of a key, with or without quotes. -/
def readKeyPart : (s : List Token) → Reading String s
  | .word letters :: rest =>
    if letters.all isKeyChar then some (String.ofList letters, .tail _ rest) else none
  | .string text :: rest => some (text, .tail _ rest)
  | _ => none

/-- A key whose parts before the front of the tokens were read already. -/
def readKeyFrom (parents : List String) (s : List Token) : Reading Key s := do
  let (part, ⟨r, hr⟩) ← readKeyPart (skipBlank s)
  have shorter : r.length < s.length := Nat.lt_of_lt_of_le hr (length_skipBlank_le s)
  match readSpacedMark '.' r with
  | some ⟨t, ht⟩ => do
    let (key, u) ← readKeyFrom (part :: parents) t
    return (key, .trans ⟨r, shorter⟩ (.trans ⟨t, ht⟩ u))
  | none => if parents.length < maxDepth then some (⟨parents.reverse, part⟩, ⟨r, shorter⟩) else none
termination_by s.length

def readKey (s : List Token) : Reading Key s :=
  readKeyFrom [] s

/-! ### Values -/

/-- The characters of the words and points at the front of the tokens, and what follows them. -/
def spanScalar : List Token → List Char × List Token
  | .word letters :: rest => (letters ++ (spanScalar rest).1, (spanScalar rest).2)
  | .mark c :: rest =>
    if c = '.' then (c :: (spanScalar rest).1, (spanScalar rest).2) else ([], .mark c :: rest)
  | s => ([], s)

theorem length_spanScalar_le (s : List Token) : (spanScalar s).2.length ≤ s.length := by
  fun_induction spanScalar s with
  | case1 letters rest ih => exact Nat.le_succ_of_le ih
  | case2 rest ih => exact Nat.le_succ_of_le ih
  | case3 => exact Nat.le_refl _
  | case4 => exact Nat.le_refl _

/-- A value without quotes and brackets: a run of words and points, or a date, a space
and one more such run. -/
def readScalar : (s : List Token) → Reading Toml s
  | .word letters :: s =>
    let text := letters ++ (spanScalar s).1
    match h : (spanScalar s).2 with
    | .blank [' '] :: t =>
      if Scalar.isDate text && !(spanScalar t).1.isEmpty then
        (Scalar.parse? (text ++ ' ' :: (spanScalar t).1)).map fun v => (v, ⟨(spanScalar t).2, by
          have first := length_spanScalar_le s
          have second := length_spanScalar_le t
          rw [h, List.length_cons] at first
          rw [List.length_cons]
          omega⟩)
      else
        (Scalar.parse? text).map fun v =>
          (v, ⟨(spanScalar s).2, Nat.lt_succ_of_le (length_spanScalar_le s)⟩)
    | _ =>
      (Scalar.parse? text).map fun v =>
        (v, ⟨(spanScalar s).2, Nat.lt_succ_of_le (length_spanScalar_le s)⟩)
  | _ => none

mutual

/-- A value; `depth` more values may lie inside one another. -/
def readValue (depth : Nat) (s : List Token) : Reading Toml s :=
  match s with
  | .string text :: rest => some (.string text, .tail _ rest)
  | .block text :: rest => some (.string text, .tail _ rest)
  | .mark '[' :: rest =>
    if depth = 0 then none
    else (readItems (depth - 1) [] rest).map fun (v, r) => (v, .behind _ r)
  | .mark '\x7b' :: rest =>
    if depth = 0 then none
    else
      match readSpacedMark '\x7d' rest with
      | some r => some (.table .braces .empty, .behind _ r)
      | none => (readEntries (depth - 1) .empty rest).map fun (v, r) => (v, .behind _ r)
  | s => readScalar s
termination_by 2 * s.length

/-- The items of an array up to its bracket; lines may end between them, and a comma may
stand after the last. -/
def readItems (depth : Nat) (read : List Toml) (s : List Token) : Reading Toml s :=
  match readMark ']' (skipTrivia s) with
  | some r => some (.array read.reverse, .ofLE (length_skipTrivia_le s) r)
  | none => do
    let h₀ := length_skipTrivia_le s
    let (item, ⟨r, hr⟩) ← readValue depth (skipTrivia s)
    let h₁ := length_skipTrivia_le r
    match readMark ',' (skipTrivia r) with
    | some ⟨t, ht⟩ => do
      have shorter : t.length < s.length := by omega
      let (v, u) ← readItems depth (item :: read) t
      return (v, .trans ⟨t, shorter⟩ u)
    | none => do
      let ⟨t, ht⟩ ← readMark ']' (skipTrivia r)
      return (.array (item :: read).reverse, ⟨t, by omega⟩)
termination_by 2 * s.length + 1

/-- The entries of a table in braces from one entry on, up to the closing brace. -/
def readEntries (depth : Nat) (read : OrderedMap Toml) (s : List Token) : Reading Toml s := do
  let (key, ⟨r₁, h₁⟩) ← readKey s
  let ⟨r₂, h₂⟩ ← readSpacedMark '=' r₁
  let h₂' := length_skipBlank_le r₂
  have shorter : (skipBlank r₂).length < s.length := by omega
  let (value, ⟨r₃, h₃⟩) ← readValue depth (skipBlank r₂)
  let entries ← addPair key value .braces read
  match readSpacedMark ',' r₃ with
  | some ⟨t, ht⟩ => do
    have shorter : t.length < s.length := by omega
    let (v, u) ← readEntries depth entries t
    return (v, .trans ⟨t, shorter⟩ u)
  | none => do
    let ⟨t, ht⟩ ← readSpacedMark '\x7d' r₃
    return (.table .braces entries, ⟨t, by omega⟩)
termination_by 2 * s.length + 1

end

/-! ### Lines -/

inductive Line where
  | pair (key : Key) (value : Toml)
  | header (key : Key) (repeated : Bool)

/-- A line, from its first token that is neither blank nor comment. -/
def readLine : (s : List Token) → Reading Line s
  | .mark '[' :: .mark '[' :: rest => do
    let (key, r) ← readKey rest
    let t ← readSpacedMark ']' r.1
    let u ← readMark ']' t.1
    return (.header key true, .behind _ (.behind _ (.trans r (.trans t u))))
  | .mark '[' :: rest => do
    let (key, r) ← readKey rest
    let t ← readSpacedMark ']' r.1
    return (.header key false, .behind _ (.trans r t))
  | s => do
    let (key, r) ← readKey s
    let t ← readSpacedMark '=' r.1
    let (value, u) ← readValue maxDepth (skipBlank t.1)
    return (.pair key value, .trans r (.trans t (.ofLE (length_skipBlank_le t.1) u)))

/-- Whether a line may end before these tokens. -/
def endsLine (s : List Token) : Bool :=
  match skipBlank s with
  | [] => true
  | .newline :: _ => true
  | .comment :: _ => true
  | _ => false

def readLines (s : List Token) : Option (List Line) :=
  match h : skipTrivia s with
  | [] => some []
  | token :: t => do
    let (line, ⟨r, hr⟩) ← readLine (token :: t)
    have shorter : r.length < s.length := by
      have := length_skipTrivia_le s
      rw [h] at this
      omega
    if endsLine r then return line :: (← readLines r) else none
termination_by s.length

/-- The pairs before the first header, and the sections. -/
def sectionsOf : List Line → List (Key × Toml) × List Section
  | [] => ([], [])
  | .pair key value :: rest =>
    let (pairs, sections) := sectionsOf rest
    ((key, value) :: pairs, sections)
  | .header key repeated :: rest =>
    let (pairs, sections) := sectionsOf rest
    ([], ⟨key, repeated, pairs⟩ :: sections)

/-- A text may begin with a mark of its byte order. -/
def dropByteOrderMark : List Char → List Char
  | '\uFEFF' :: rest => rest
  | s => s

/-- The table that a text describes. -/
def parse? (text : String) : Option (OrderedMap Toml) := do
  let tokens ← Token.readAll (dropByteOrderMark text.toList)
  let (pairs, sections) := sectionsOf (← readLines tokens)
  ofSections pairs sections

end SubmissionAnnotation.Toml
