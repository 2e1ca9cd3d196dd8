import SubmissionAnnotation.CommandLine.Invocation

/-!
# The command line

A run reads the settings, then the documents of its command, and prints the document that
results. Files are read through a function that is handed in, so that a run is a value of
any monad that has files.
-/
namespace SubmissionAnnotation

universe v

/-- The text of a file, or why it has none. -/
abbrev Contents := Except FileError String

/-- The JSON document of a file. -/
def Json.ofFile (path : String) (contents : Contents) : Except CommandError Json := do
  let text ← contents.mapError (.readingFile path)
  (Json.parse text).mapError (.parsingFile path)

/-- The settings of a file. -/
def Settings.ofFile (path : String) (contents : Contents) : Except CommandError Settings := do
  let text ← contents.mapError (.readingConfig path)
  (Settings.ofToml text).mapError (.parsingConfig path)

namespace CommandLine

variable {m : Type → Type v} [Monad m]

/-- The settings of the named file; without a name, the default ones. -/
def loadSettings (readText : String → m Contents) : Option String → ExceptT CommandError m Settings
  | none => return .default
  | some path => ExceptT.mk do return Settings.ofFile path (← readText path)

/-- The document that an invocation asks for. -/
def Invocation.execute (readText : String → m Contents) (i : Invocation) :
    ExceptT CommandError m Json := do
  let settings ← loadSettings readText i.config
  let fetch (path : String) : ExceptT CommandError m Json :=
    ExceptT.mk do return Json.ofFile path (← readText path)
  Command.execute (Batch.defaultRegistry settings.actions) i.action fetch i.command

/-- What a run leaves behind. -/
structure Outcome where
  exitCode : UInt8
  /-- What it writes to standard output. -/
  output : String
  /-- What it writes to standard error. -/
  report : String
  deriving DecidableEq, Repr

def versionText : String := "subseq 0.1.0\n"

def usageText : String :=
  "Usage: subseq [--config FILE] [--json-logs] COMMAND [--action ID] FILES\n\n" ++
  "  params --form FILE\n" ++
  "  schema --params FILE --schema FILE\n" ++
  "  check --params FILE --submissions FILE\n" ++
  "  run --params FILE --submissions FILE\n" ++
  "  engines --params FILE\n"

namespace Outcome

def ofStop : Stop → Outcome
  | .badUsage => ⟨2, "", usageText⟩
  | .help => ⟨0, usageText, ""⟩
  | .version => ⟨0, versionText, ""⟩

def ofResult : Except CommandError Json → Outcome
  | .ok document => ⟨0, document.pretty ++ "\n", ""⟩
  | .error e => ⟨1, "", e.report⟩

end Outcome

/-- Runs a command line. -/
def run (readText : String → m Contents) (words : List String) : m Outcome :=
  match Invocation.ofWords words with
  | .error reason => return .ofStop reason
  | .ok i => do return .ofResult (← (i.execute readText).run)

end CommandLine

end SubmissionAnnotation
