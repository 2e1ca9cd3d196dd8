import SubmissionAnnotation.Json.Printer
import SubmissionAnnotation.Text.Quoted

/-!
# Why a JSON value is not an instance of a type

Each constructor is one cause; the wording is in `message`. A cause keeps the value that was found,
so that the text can describe it.
-/
namespace SubmissionAnnotation

inductive DecodeError where
  /-- A value of another kind stands where a value of the described kind is needed. -/
  | wrongKind (found : Json) (expected : String)
  /-- A variant is written as an object with other than one member. -/
  | notOneMember
  | missingField (name : String)
  | unknownField (name : String) (known : List String)
  | unknownVariant (name : String) (known : List String)
  /-- An array ends before a field that has no default. -/
  | tooFewItems (count : Nat) (record : String) (fields : Nat)
  /-- An array goes on after the last field. -/
  | tooManyItems (count : Nat)

namespace DecodeError

/-- The value that was found, as messages describe it. -/
def describe : Json → String
  | .null => "null"
  | .bool b => "boolean `" ++ (if b then "true" else "false") ++ "`"
  | .number (.integer n) => "integer `" ++ toString n ++ "`"
  | .number (.double x) => "floating point `" ++ JsonNumber.layout.write x ++ "`"
  | .string s => "string " ++ Text.quoted s
  | .array _ => "sequence"
  | .object _ => "map"

/-- The names that would have been right. -/
def alternatives (names : List String) : String :=
  let ticked := names.map fun name => "`" ++ name ++ "`"
  match ticked with
  | [first, second] => first ++ " or " ++ second
  | [only] => only
  | _ => "one of " ++ ", ".intercalate ticked

def message : DecodeError → String
  | .wrongKind found expected => "invalid type: " ++ describe found ++ ", expected " ++ expected
  | .notOneMember => "invalid value: map, expected map with a single key"
  | .missingField name => "missing field `" ++ name ++ "`"
  | .unknownField name known => "unknown field `" ++ name ++ "`, expected " ++ alternatives known
  | .unknownVariant name known =>
    "unknown variant `" ++ name ++ "`, expected " ++ alternatives known
  | .tooFewItems count record fields =>
    "invalid length " ++ toString count ++ ", expected struct " ++ record ++ " with " ++
      toString fields ++ if fields = 1 then " element" else " elements"
  | .tooManyItems count =>
    "invalid length " ++ toString count ++ ", expected fewer elements in array"

end DecodeError

end SubmissionAnnotation
