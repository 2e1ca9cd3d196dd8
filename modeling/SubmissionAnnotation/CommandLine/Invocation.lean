import SubmissionAnnotation.Command
import SubmissionAnnotation.CommandLine.Words

/-!
# Invocations

What a command line asks for: a command over files, the action, and the settings. The
settings may be named before the name of the command or behind it; if they are named at both
places, the second counts.
-/
namespace SubmissionAnnotation.CommandLine

structure Invocation where
  /-- The file with the settings. -/
  config : Option String
  /-- Whether log messages are lines of JSON whatever the settings say. -/
  jsonLogs : Bool
  action : String
  command : Command String

/-- The action that is meant if none is named. -/
def defaultAction : String := "transcript"

/-- Each command with the files that it needs. -/
def commandFiles : List (String × List String) := [
  ("params", ["form"]),
  ("schema", ["params", "schema"]),
  ("check", ["params", "submissions"]),
  ("run", ["params", "submissions"]),
  ("engines", ["params"])]

/-- The options of all levels. -/
def sharedOptions : List (String × OptionKind) :=
  [("config", .path), ("json-logs", .flag), ("help", .stop .help)]

def outerLevel : Level where
  options := ("version", .stop .version) :: sharedOptions
  letters := [('V', .version), ('h', .help)]
  commands := "help" :: commandFiles.map Prod.fst

/-- The answer to the words behind `help`, of which there may be one that names a command. -/
def helpOn : List String → Stop
  | [] => .help
  | [name] => if name ∈ outerLevel.commands then .help else .badUsage
  | _ => .badUsage

/-- The words behind the name of a command that needs these files. -/
def innerLevel (files : List String) : Level where
  options := ("action", .text) :: files.map (·, .path) ++ sharedOptions
  letters := [('h', .help)]
  commands := []

/-- The command of a name over the files that were given, if none of them is missing. -/
def command? (name : String) (given : Given) : Option (Command String) := do
  match name with
  | "params" => return .params (← given.get? "form")
  | "schema" => return .schema (← given.get? "params") (← given.get? "schema")
  | "check" => return .check (← given.get? "params") (← given.get? "submissions")
  | "run" => return .run (← given.get? "params") (← given.get? "submissions")
  | "engines" => return .engines (← given.get? "params")
  | _ => none

def Invocation.ofWords (words : List String) : Except Stop Invocation := do
  let (outer, rest) ← outerLevel.read .empty words
  match rest with
  | [] => throw .badUsage
  | "help" :: names => throw (helpOn names)
  | name :: rest =>
    let (inner, _) ← (innerLevel ((commandFiles.lookup name).getD [])).read .empty rest
    match command? name inner with
    | none => throw .badUsage
    | some command =>
      return {
        config := inner.get? "config" <|> outer.get? "config"
        jsonLogs := inner.contains "json-logs" || outer.contains "json-logs"
        action := (inner.get? "action").getD defaultAction
        command := command }

end SubmissionAnnotation.CommandLine
