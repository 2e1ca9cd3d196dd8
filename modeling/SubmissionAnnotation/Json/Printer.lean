import SubmissionAnnotation.Json
import SubmissionAnnotation.Decimal.Notation
import SubmissionAnnotation.Text.Hex

/-!
# Writing JSON text

Compact text has no spaces; indented text gives every item and member a line of its own. Both write
members in their order and escape in strings only the quote, the backslash and the control
characters below U+0020.
-/
namespace SubmissionAnnotation

namespace JsonNumber

/-- Exponents from -5 to 15 are written with all places, and a whole double keeps a decimal. -/
def layout : NumberLayout where
  minPlain := -5
  maxPlain := 15
  wholeSuffix := ".0"
  powerSign := "+"

def write : JsonNumber → String
  | .integer n => toString n
  | .double x => layout.write x

end JsonNumber

namespace Json

def escapeChar (c : Char) : List Char :=
  if c = '"' then ['\\', '"']
  else if c = '\\' then ['\\', '\\']
  else if c.toNat = 8 then ['\\', 'b']
  else if c.toNat = 9 then ['\\', 't']
  else if c.toNat = 10 then ['\\', 'n']
  else if c.toNat = 12 then ['\\', 'f']
  else if c.toNat = 13 then ['\\', 'r']
  else if c.toNat < 32 then ['\\', 'u'] ++ Hex.fixed 4 c.toNat
  else [c]

def quote (s : String) : String :=
  String.ofList ('"' :: s.toList.flatMap escapeChar ++ ['"'])

mutual

/-- The text of a value without any spaces. -/
def compact : Json → String
  | .null => "null"
  | .bool b => if b then "true" else "false"
  | .number n => n.write
  | .string s => quote s
  | .array items => "[" ++ ",".intercalate (compactItems items) ++ "]"
  | .object ⟨entries⟩ => "\x7b" ++ ",".intercalate (compactMembers entries) ++ "\x7d"

def compactItems : List Json → List String
  | [] => []
  | item :: rest => compact item :: compactItems rest

def compactMembers : List (String × Json) → List String
  | [] => []
  | (key, value) :: rest => (quote key ++ ":" ++ compact value) :: compactMembers rest

end

/-- Lines between brackets, one step deeper than the brackets; nothing at all stays on one line. -/
def block (opening closing indent : String) (lines : List String) : String :=
  if lines.isEmpty then opening ++ closing
  else opening ++ "\n" ++ ",\n".intercalate lines ++ "\n" ++ indent ++ closing

mutual

/-- The text of a value with two spaces per level, at the level of `indent`. -/
def indented (indent : String) : Json → String
  | .array items => block "[" "]" indent (indentedItems (indent ++ "  ") items)
  | .object ⟨entries⟩ => block "\x7b" "\x7d" indent (indentedMembers (indent ++ "  ") entries)
  | .null => "null"
  | .bool b => if b then "true" else "false"
  | .number n => n.write
  | .string s => quote s

def indentedItems (indent : String) : List Json → List String
  | [] => []
  | item :: rest => (indent ++ indented indent item) :: indentedItems indent rest

def indentedMembers (indent : String) : List (String × Json) → List String
  | [] => []
  | (key, value) :: rest =>
    (indent ++ quote key ++ ": " ++ indented indent value) :: indentedMembers indent rest

end

def pretty (v : Json) : String :=
  indented "" v

end Json

end SubmissionAnnotation
