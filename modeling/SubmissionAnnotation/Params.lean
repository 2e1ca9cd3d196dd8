import SubmissionAnnotation.ActionError
import SubmissionAnnotation.Codec.Record
import SubmissionAnnotation.OrderedSet

/-!
# Action parameters

The record that discovery writes once for a form and every later run loads again: the fields that an
action works on, and the services that it offers. Neither list may repeat an entry, so a loaded
record is written back unchanged.
-/
namespace SubmissionAnnotation

structure ActionParams where
  values : List String
  services : List String
  deriving DecidableEq, Repr

namespace ActionParams

def valuesKey : String := "values"

def servicesKey : String := "services"

def record : Record ActionParams where
  name := "ActionParams"
  blank := ⟨[], []⟩
  fields := [
    .needed valuesKey (.list .string) values fun xs p => { p with values := xs },
    .defaulted servicesKey (.list .string) services fun xs p => { p with services := xs }]

def toJson (p : ActionParams) : Json :=
  .ofEntries [(valuesKey, .ofStrings p.values), (servicesKey, .ofStrings p.services)]

/-- Refuses a list that repeats an entry, naming the first repeat. -/
def checkDistinct (action key : String) (items : List String) : Except ActionError Unit :=
  match firstRepeat? items with
  | none => .ok ()
  | some item =>
    .error (.malformedParameters action ("'" ++ key ++ "' lists '" ++ item ++ "' more than once"))

/-- Reads a stored record on behalf of an action. -/
def ofJson (action : String) : Json → Except ActionError ActionParams
  | .object members => do
    if ¬members.contains valuesKey then
      throw (.malformedParameters action ("missing required key '" ++ valuesKey ++ "'"))
    match record.decode (.object members) with
    | .error e => throw (.malformedParameters action e.message)
    | .ok params => do
      checkDistinct action valuesKey params.values
      checkDistinct action servicesKey params.services
      return params
  | _ => .error (.malformedParameters action "parameters must be an object")

end ActionParams

end SubmissionAnnotation
