import SubmissionAnnotation.Codec.Record
import SubmissionAnnotation.Instant
import SubmissionAnnotation.Sha256

/-!
# Transcripts

The result that a slot holds once its recording was transcribed. Writing a new text keeps the old
one as the newest revision; the date of the first write stays.
-/
namespace SubmissionAnnotation

/-- The number of hexadecimal digits of a content hash. -/
def hashLength : Nat := 8

/-- The first digits of the SHA-256 digest of a text. -/
def contentHash (text : String) : String :=
  String.ofList ((Sha256.digest text.toUTF8.toList).hex.take hashLength)

theorem length_contentHash (text : String) : (contentHash text).length = hashLength := by
  simp [contentHash, hashLength]

/-- A text that an engine or a person hands in for a slot. -/
structure TranscriptInput where
  value : String
  languageCode : String
  deriving DecidableEq, Repr

def TranscriptInput.record : Record TranscriptInput where
  name := "TranscriptInput"
  blank := ⟨"", ""⟩
  fields := [
    .needed "value" .string TranscriptInput.value fun s x => { x with value := s },
    .needed "languageCode" .string TranscriptInput.languageCode
      fun s x => { x with languageCode := s }]

/-- An earlier text of a transcript. -/
structure TranscriptRevision where
  value : String
  engine : Option String
  dateModified : Option String
  hash : Option String
  languageCode : Option String
  deriving DecidableEq, Repr

def TranscriptRevision.record : Record TranscriptRevision where
  name := "TranscriptRevision"
  blank := ⟨"", none, none, none, none⟩
  others := .refused
  fields := [
    .needed "value" .string TranscriptRevision.value fun s x => { x with value := s },
    .optional "engine" .string TranscriptRevision.engine fun s x => { x with engine := s },
    .optional "dateModified" .string TranscriptRevision.dateModified
      fun s x => { x with dateModified := s },
    .optional "hash" .string TranscriptRevision.hash fun s x => { x with hash := s },
    .optional "languageCode" .string TranscriptRevision.languageCode
      fun s x => { x with languageCode := s }]

structure TranscriptValue where
  value : String
  /-- The engine that produced the text. -/
  engine : Option String
  /-- The stamp of the first write. -/
  dateCreated : Option String
  /-- The stamp of the last write. -/
  dateModified : Option String
  languageCode : Option String
  hash : Option String
  /-- The earlier texts, newest first. -/
  revisions : List TranscriptRevision
  deriving DecidableEq, Repr

namespace TranscriptValue

def record : Record TranscriptValue where
  name := "TranscriptValue"
  blank := ⟨"", none, none, none, none, none, []⟩
  others := .refused
  fields := [
    .needed "value" .string value fun s x => { x with value := s },
    .optional "engine" .string engine fun s x => { x with engine := s },
    .optional "dateCreated" .string dateCreated fun s x => { x with dateCreated := s },
    .optional "dateModified" .string dateModified fun s x => { x with dateModified := s },
    .optional "languageCode" .string languageCode fun s x => { x with languageCode := s },
    .optional "hash" .string hash fun s x => { x with hash := s },
    .defaulted "revisions" (.list TranscriptRevision.record.codec) revisions
      fun rs x => { x with revisions := rs }]

/-- A transcript that was just written for the first time. -/
def fresh (input : TranscriptInput) (engine : String) (now : Instant) : TranscriptValue where
  value := input.value
  engine := some engine
  dateCreated := some now.stamp
  dateModified := some now.stamp
  languageCode := some input.languageCode
  hash := some (contentHash input.value)
  revisions := []

/-- What is kept of a transcript once it is replaced. -/
def toRevision (t : TranscriptValue) : TranscriptRevision where
  value := t.value
  engine := t.engine
  dateModified := t.dateModified
  hash := t.hash
  languageCode := t.languageCode

/-- The transcript with a new text; the old one becomes the newest revision. -/
def revise (t : TranscriptValue) (input : TranscriptInput) (engine : String) (now : Instant) :
    TranscriptValue :=
  { fresh input engine now with
    dateCreated := t.dateCreated <|> some now.stamp
    revisions := t.toRevision :: t.revisions }

end TranscriptValue

end SubmissionAnnotation
