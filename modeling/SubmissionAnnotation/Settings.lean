import SubmissionAnnotation.Config
import SubmissionAnnotation.Toml.Reader

/-!
# Settings

The settings of a run are a TOML document with a table for the configuration of actions and one for
the log. Whatever a document leaves out has its default, and what it says besides is ignored.
-/
namespace SubmissionAnnotation

structure LoggingSettings where
  level : String
  /-- Whether each message is a line of JSON. -/
  json : Bool
  deriving DecidableEq, Repr

namespace LoggingSettings

def default : LoggingSettings := ⟨"info", false⟩

def record (surplus : SurplusItems) : Record LoggingSettings where
  name := "LoggingSettings"
  blank := default
  surplus := surplus
  fields := [
    .defaulted "level" .string level fun s l => { l with level := s },
    .defaulted "json" .bool json fun b l => { l with json := b }]

end LoggingSettings

structure Settings where
  actions : ActionConfig
  logging : LoggingSettings

/-- Why a text is no settings document. -/
inductive SettingsError where
  | malformed
  | wrongShape (cause : DecodeError)

namespace SettingsError

def message : SettingsError → String
  | .malformed => "the text is not a TOML document"
  | .wrongShape cause => cause.message

end SettingsError

namespace Settings

def default : Settings := ⟨.default, .default⟩

def record (surplus : SurplusItems) : Record Settings where
  name := "Settings"
  blank := default
  surplus := surplus
  fields := [
    .defaulted "actions" (ActionConfig.record surplus).codec actions
      fun c s => { s with actions := c },
    .defaulted "logging" (LoggingSettings.record surplus).codec logging
      fun l s => { s with logging := l }]

/-- The settings that a TOML text gives. -/
def ofToml (text : String) : Except SettingsError Settings :=
  match Toml.parse? text with
  | none => .error .malformed
  | some entries =>
    ((record .ignored).decode (Toml.table .header entries).toJson).mapError .wrongShape

end Settings

end SubmissionAnnotation
