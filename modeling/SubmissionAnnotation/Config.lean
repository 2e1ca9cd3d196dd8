import SubmissionAnnotation.Codec.Record

/-!
# Configuration

What all actions share: where in a submission the supplementary block lies, the language of labels,
and for single actions the services that they offer in place of those that they declare themselves.
-/
namespace SubmissionAnnotation

structure ActionConfig where
  destinationField : String
  labelLanguage : String
  services : OrderedMap (List String)

namespace ActionConfig

def defaultDestinationField : String := "_supplementalDetails"

def default : ActionConfig := ⟨defaultDestinationField, "en", .empty⟩

def withServices (c : ActionConfig) (action : String) (services : List String) : ActionConfig :=
  { c with services := c.services.insert action services }

/-- The services that were configured for an action, if any were. -/
def servicesFor? (c : ActionConfig) (action : String) : Option (List String) :=
  c.services.get? action

def record (surplus : SurplusItems) : Record ActionConfig where
  name := "ActionConfig"
  blank := default
  surplus := surplus
  fields := [
    .defaulted "destination_field" .string destinationField
      fun s c => { c with destinationField := s },
    .defaulted "label_language" .string labelLanguage fun s c => { c with labelLanguage := s },
    .defaulted "services" (.map (.list .string)) services fun m c => { c with services := m }]

end ActionConfig

end SubmissionAnnotation
