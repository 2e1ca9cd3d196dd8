import SubmissionAnnotation.OrderedMap

/-!
# Words of a command line

A command line has levels: the words before the name of a command and those behind it. Each
level has options of its own, of which every one is given at most once, as `--name value`
or `--name=value`. A word that is neither an option, nor its value, nor the name of a
command ends the reading.
-/
namespace SubmissionAnnotation.CommandLine

/-- Why a command line is not read to its end. -/
inductive Stop where
  | badUsage
  /-- The user asks for help. -/
  | help
  /-- The user asks for the version. -/
  | version
  deriving DecidableEq, Repr

inductive OptionKind where
  /-- It stands alone. -/
  | flag
  /-- It has a value, which may be empty. -/
  | text
  /-- It has a value, which may not be empty. -/
  | path
  /-- It ends the reading at once. -/
  | stop (reason : Stop)
  deriving DecidableEq, Repr

/-- What may be said at one level. -/
structure Level where
  options : List (String × OptionKind)
  /-- Options of one letter. -/
  letters : List (Char × Stop)
  /-- The names at which the level ends. -/
  commands : List String

/-- The options that were given at one level, with their values. -/
abbrev Given := OrderedMap String

/-- The name of an option and the value behind its equals sign, if the word
begins with two dashes. -/
def splitOption? (word : String) : Option (String × Option String) :=
  match word.toList with
  | '-' :: '-' :: rest =>
    let name := String.ofList (rest.takeWhile (· ≠ '='))
    match rest.dropWhile (· ≠ '=') with
    | [] => some (name, none)
    | _ :: value => some (name, some (String.ofList value))
  | _ => none

/-- Whether a word is taken for an option where a value is wanted; a single dash is a value. -/
def looksLikeOption (word : String) : Bool :=
  word.startsWith "-" && word ≠ "-"

/-- The reason to stop at a word that is no option with a name. -/
def Level.stopAt (level : Level) (word : String) : Stop :=
  match word.toList with
  | '-' :: letter :: _ => (level.letters.lookup letter).getD .badUsage
  | _ => .badUsage

/-- Notes the value of an option. -/
def give (given : Given) (name : String) (kind : OptionKind) (value : String) : Except Stop Given :=
  if given.contains name || (kind = .path && value.isEmpty) then .error .badUsage
  else .ok (given.insert name value)

/-- The options at the front of the words, and the words from the name of a command on. -/
def Level.read (level : Level) (given : Given) : List String → Except Stop (Given × List String)
  | [] => .ok (given, [])
  | "--" :: rest => if rest.isEmpty then .ok (given, []) else .error .badUsage
  | word :: rest =>
    if word ∈ level.commands then .ok (given, word :: rest)
    else
      match splitOption? word with
      | none => .error (level.stopAt word)
      | some (name, attached) =>
        match level.options.lookup name, attached, rest with
        | none, _, _ => .error .badUsage
        | some (.stop reason), none, _ => .error reason
        | some .flag, none, rest => do level.read (← give given name .flag "") rest
        | some .flag, some _, _ => .error .badUsage
        | some (.stop _), some _, _ => .error .badUsage
        | some kind, some value, rest => do level.read (← give given name kind value) rest
        | some kind, none, value :: rest => do
          if looksLikeOption value then .error .badUsage
          level.read (← give given name kind value) rest
        | some _, none, [] => .error .badUsage

end SubmissionAnnotation.CommandLine
