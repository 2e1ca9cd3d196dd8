import SubmissionAnnotation.Text.Hex
import SubmissionAnnotation.Text.Rest

/-!
# Tokens of TOML text

A text is split into strings, words, marks and what separates them before any of it is
understood as a key or a value. Strings and comments begin with the same characters wherever
they may stand, so that no token depends on its place. A text in which some character begins no
token has no tokens at all.
-/
namespace SubmissionAnnotation.Toml

inductive Token where
  /-- A run of spaces and tabs. -/
  | blank (characters : List Char)
  | newline
  | comment
  /-- A run of the letters, digits and signs of which bare keys, numbers and dates consist. -/
  | word (letters : List Char)
  /-- A string in single quotes of either kind. -/
  | string (s : String)
  /-- A string in triple quotes of either kind. -/
  | block (s : String)
  | mark (c : Char)
  deriving DecidableEq, Repr

/-- Something read from the front of a text, with the rest. -/
abbrev Scan (α : Type) (s : List Char) := Option (α × Rest s)

namespace Token

def isBlankChar (c : Char) : Bool :=
  c = ' ' || c = '\t'

def isWordChar (c : Char) : Bool :=
  c.isAlphanum || c = '_' || c = '-' || c = '+' || c = ':'

def isMark (c : Char) : Bool :=
  c ∈ ['.', ',', '=', '[', ']', '\x7b', '\x7d']

/-- The characters of strings and comments: tabs, and everything but control characters. -/
def isTextChar (c : Char) : Bool :=
  c = '\t' || (32 ≤ c.toNat && c.toNat ≠ 127)

/-- The character with the number that exactly `count` hexadecimal digits write. -/
def readCodePoint (count : Nat) (s : List Char) :
    Option (Char × Left s) := do
  guard ((s.take count).length = count)
  let n ← Hex.parse? (s.take count)
  guard n.isValidChar
  return (Char.ofNat n, .drop count s)

/-- The character that an escape stands for; the backslash was read already. -/
def readEscape : (s : List Char) → Scan Char s
  | [] => none
  | c :: rest =>
    let plain (c' : Char) : Scan Char (c :: rest) := some (c', .tail c rest)
    let numbered (count : Nat) : Scan Char (c :: rest) :=
      (readCodePoint count rest).map fun (c', r) => (c', .ofLeft c r)
    match c with
    | 'b' => plain '\x08'
    | 't' => plain '\t'
    | 'n' => plain '\n'
    | 'f' => plain '\x0c'
    | 'r' => plain '\r'
    | '"' => plain '"'
    | '\\' => plain '\\'
    | 'u' => numbered 4
    | 'U' => numbered 8
    | _ => none

/-- A string with escapes up to its closing quote; the opening one was read already. -/
def readBasic (read : List Char) (s : List Char) : Scan String s :=
  match s with
  | [] => none
  | '"' :: rest => some (String.ofList read.reverse, .tail _ rest)
  | '\\' :: rest => do
    let (c, ⟨r, hr⟩) ← readEscape rest
    let (text, t) ← readBasic (c :: read) r
    return (text, .behind _ (.trans ⟨r, hr⟩ t))
  | c :: rest =>
    if isTextChar c then do
      let (text, t) ← readBasic (c :: read) rest
      return (text, .behind _ t)
    else none
termination_by s.length

/-- A string without escapes up to its closing quote; the opening one was read already. -/
def readLiteral (read : List Char) : (s : List Char) → Scan String s
  | [] => none
  | c :: rest =>
    if c = '\'' then some (String.ofList read.reverse, .tail _ rest)
    else if isTextChar c then do
      let (text, t) ← readLiteral (c :: read) rest
      return (text, .behind _ t)
    else none

/--
The end of a string in triple quotes: three quotes, before which up to two more belong to the
string. It is given with the quotes that belong to the string.
-/
def readClosing (quote : Char) (s : List Char) : Scan (List Char) s :=
  let run := (s.takeWhile (· = quote)).length
  if h : 3 ≤ run then
    let kept := min (run - 3) 2
    some (.replicate kept quote, ⟨s.drop (3 + kept), by
      have := (List.takeWhile_prefix (· = quote) (l := s)).length_le
      simp only [run] at h
      rw [List.length_drop]
      omega⟩)
  else none

/-- What is left behind blanks and line ends. -/
def skipLines : List Char → List Char
  | '\r' :: '\n' :: rest => skipLines rest
  | c :: rest => if isBlankChar c || c = '\n' then skipLines rest else c :: rest
  | [] => []

theorem length_skipLines_le (s : List Char) : (skipLines s).length ≤ s.length := by
  fun_induction skipLines s with
  | case1 rest ih => simp only [List.length_cons]; omega
  | case2 c rest _ _ ih => simp only [List.length_cons]; omega
  | case3 => exact Nat.le_refl _
  | case4 => exact Nat.le_refl _

/-- A line end behind a backslash, which is dropped with the blanks and line ends around it. -/
def readLineEnd (s : List Char) : Option (Rest s) :=
  match h : s.dropWhile isBlankChar with
  | '\n' :: rest => some ⟨skipLines rest, by
      have shorter := (List.dropWhile_suffix isBlankChar (l := s)).length_le
      have := length_skipLines_le rest
      rw [h, List.length_cons] at shorter
      omega⟩
  | '\r' :: '\n' :: rest => some ⟨skipLines rest, by
      have shorter := (List.dropWhile_suffix isBlankChar (l := s)).length_le
      have := length_skipLines_le rest
      rw [h, List.length_cons, List.length_cons] at shorter
      omega⟩
  | _ => none

/-- A string in triple quotes up to its end, with escapes or without. -/
def readBlock (quote : Char) (escapes : Bool) (read : List Char) (s : List Char) : Scan String s :=
  match readClosing quote s with
  | some (kept, r) => some (String.ofList (read.reverse ++ kept), r)
  | none =>
    match s with
    | [] => none
    | '\r' :: '\n' :: rest => do
      let (text, t) ← readBlock quote escapes ('\n' :: read) rest
      return (text, .behind _ (.behind _ t))
    | c :: rest =>
      if escapes && c = '\\' then
        match readLineEnd rest with
        | some ⟨r, hr⟩ => do
          let (text, t) ← readBlock quote escapes read r
          return (text, .behind _ (.trans ⟨r, hr⟩ t))
        | none => do
          let (c', ⟨r, hr⟩) ← readEscape rest
          let (text, t) ← readBlock quote escapes (c' :: read) r
          return (text, .behind _ (.trans ⟨r, hr⟩ t))
      else if isTextChar c || c = '\n' then do
        let (text, t) ← readBlock quote escapes (c :: read) rest
        return (text, .behind _ t)
      else none
termination_by s.length

/-- A line end right behind the opening quotes is no part of the string. -/
def dropFirstLineEnd : (s : List Char) → Left s
  | '\n' :: rest => .tail _ rest
  | '\r' :: '\n' :: rest => .behind _ (.tail _ rest)
  | s => .all s

/-- A string in triple quotes, of which the opening ones were read already. -/
def readTripleQuoted (quote : Char) (escapes : Bool) (s : List Char) : Scan Token s := do
  let ⟨t, ht⟩ := dropFirstLineEnd s
  let (text, r) ← readBlock quote escapes [] t
  return (.block text, .ofLE ht r)

/-- The first token of a text. -/
def read : (s : List Char) → Scan Token s
  | [] => none
  | '\n' :: rest => some (.newline, .tail _ rest)
  | '\r' :: '\n' :: rest => some (.newline, .behind _ (.tail _ rest))
  | '#' :: rest => some (.comment, (Rest.tail '#' rest).dropWhile isTextChar)
  | '"' :: '"' :: '"' :: rest =>
    (readTripleQuoted '"' true rest).map fun (token, r) =>
      (token, .behind _ (.behind _ (.behind _ r)))
  | '"' :: rest => (readBasic [] rest).map fun (text, r) => (.string text, .behind _ r)
  | '\'' :: '\'' :: '\'' :: rest =>
    (readTripleQuoted '\'' false rest).map fun (token, r) =>
      (token, .behind _ (.behind _ (.behind _ r)))
  | '\'' :: rest => (readLiteral [] rest).map fun (text, r) => (.string text, .behind _ r)
  | c :: rest =>
    if isBlankChar c then
      some (.blank (c :: rest.takeWhile isBlankChar), (Rest.tail c rest).dropWhile isBlankChar)
    else if isWordChar c then
      some (.word (c :: rest.takeWhile isWordChar), (Rest.tail c rest).dropWhile isWordChar)
    else if isMark c then some (.mark c, .tail c rest)
    else none

/-- All tokens of a text. -/
def readAll (s : List Char) : Option (List Token) :=
  match s with
  | [] => some []
  | c :: t => do
    let (token, r) ← read (c :: t)
    return token :: (← readAll r.1)
termination_by s.length
decreasing_by exact r.2

end Token

end SubmissionAnnotation.Toml
