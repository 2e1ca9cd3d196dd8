/-!
# Errors of actions

Only what a caller has to mend is an error. Gaps in a submission, such as a missing block or a
missing slot, are states that the change step fills, never errors.
-/
namespace SubmissionAnnotation

inductive ActionError where
  /-- A stored parameter record lacks a key or has the wrong shape. -/
  | malformedParameters (action reason : String)
  /-- An action does not offer what it was asked for. -/
  | abstractCapability (action capability : String)
  | invalidSchema (reason : String)
  | invalidSubmission (reason : String)
  | unknownAction (id : String)
  /-- No slot of the loaded matrix has this field and this service. -/
  | unknownFieldService (field service : String)
  /-- A slot cannot be completed from the state in which it is. -/
  | invalidTransition (key state : String)
  deriving DecidableEq, Repr

namespace ActionError

def message : ActionError → String
  | .malformedParameters action reason =>
    "malformed parameters for action '" ++ action ++ "': " ++ reason
  | .abstractCapability action capability =>
    "action '" ++ action ++ "' does not implement capability '" ++ capability ++ "'"
  | .invalidSchema reason => "invalid schema document: " ++ reason
  | .invalidSubmission reason => "invalid submission: " ++ reason
  | .unknownAction id => "unknown action: '" ++ id ++ "'"
  | .unknownFieldService field service => "'" ++ field ++ "' has no '" ++ service ++ "' service"
  | .invalidTransition key state => "cannot complete '" ++ key ++ "' from state " ++ state

/-- Whether the caller's configuration is at fault. -/
def isConfiguration : ActionError → Bool
  | .malformedParameters _ _ => true
  | .unknownAction _ => true
  | _ => false

/-- Whether the action itself is at fault and not the data. -/
def isProgrammingError : ActionError → Bool
  | .abstractCapability _ _ => true
  | _ => false

end ActionError

end SubmissionAnnotation
