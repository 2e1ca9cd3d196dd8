import SubmissionAnnotation.OrderedMap
import SubmissionAnnotation.Decimal.Binary64

/-!
# JSON values

A JSON value keeps the order of its object members and tells whole numbers from doubles:
forms, parameter records and submissions are handed back as they came, apart from what an
action writes into them.
-/
namespace SubmissionAnnotation

/-- A whole number kept exactly, or a double kept as its bits. -/
inductive JsonNumber where
  | integer (n : Int)
  | double (x : Binary64)
  deriving DecidableEq, Repr

inductive Json where
  | null
  | bool (b : Bool)
  | number (n : JsonNumber)
  | string (s : String)
  | array (items : List Json)
  | object (members : OrderedMap Json)
  deriving Inhabited

namespace Json

/-- The members of an object under construction, from a list of entries with distinct keys. -/
def ofEntries (entries : List (String × Json)) : Json :=
  .object ⟨entries⟩

def ofNat (n : Nat) : Json :=
  .number (.integer n)

def ofStrings (items : List String) : Json :=
  .array (items.map .string)

/-- What kind of value this is, as error texts name it. -/
def kind : Json → String
  | .null => "null"
  | .bool _ => "boolean"
  | .number _ => "number"
  | .string _ => "string"
  | .array _ => "array"
  | .object _ => "object"

/-- The value of a member; values other than objects have none. -/
def member? (v : Json) (key : String) : Option Json :=
  match v with
  | .object members => members.get? key
  | _ => none

end Json

end SubmissionAnnotation
