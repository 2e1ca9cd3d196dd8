import SubmissionAnnotation.ActionError
import SubmissionAnnotation.Json.Reader
import SubmissionAnnotation.Settings

/-!
# Errors of commands

A command fails at one of its documents or in the action that it asks. An error has a message, which
says what was being done, and mostly a cause.
-/
namespace SubmissionAnnotation

/-- Why a file has no text. -/
inductive FileError where
  | notFound
  /-- The file's bytes are no UTF-8 text. -/
  | notText
  | unreadable
  deriving DecidableEq, Repr

def FileError.message : FileError → String
  | .notFound => "no such file"
  | .notText => "the file is not UTF-8 text"
  | .unreadable => "the file cannot be read"

def Json.ReadError.message : Json.ReadError → String
  | .endOfText => "the JSON text ends too early"
  | .malformed => "the text is not a JSON document"

inductive CommandError where
  | readingFile (path : String) (cause : FileError)
  | parsingFile (path : String) (cause : Json.ReadError)
  | readingConfig (path : String) (cause : FileError)
  | parsingConfig (path : String) (cause : SettingsError)
  | formDefinition (cause : DecodeError)
  | loadingParameters (cause : ActionError)
  | action (error : ActionError)

namespace CommandError

def message : CommandError → String
  | .readingFile path _ => "reading " ++ path
  | .parsingFile path _ => "parsing " ++ path
  | .readingConfig path _ => "reading config " ++ path
  | .parsingConfig path _ => "parsing config " ++ path
  | .formDefinition _ => "form definition"
  | .loadingParameters _ => "loading action parameters"
  | .action error => error.message

/-- The message of what lies behind the error; an action's own error has nothing behind it. -/
def cause? : CommandError → Option String
  | .readingFile _ cause => some cause.message
  | .parsingFile _ cause => some cause.message
  | .readingConfig _ cause => some cause.message
  | .parsingConfig _ cause => some cause.message
  | .formDefinition cause => some cause.message
  | .loadingParameters cause => some cause.message
  | .action _ => none

/-- Each line of a text, four spaces to the right. -/
def indent (text : String) : String :=
  "\n".intercalate ((text.splitOn "\n").map ("    " ++ ·))

/-- What is shown to the user. -/
def report (e : CommandError) : String :=
  "Error: " ++ e.message ++
    match e.cause? with
    | some cause => "\n\nCaused by:\n" ++ indent cause ++ "\n"
    | none => "\n"

end CommandError

end SubmissionAnnotation
