import SubmissionAnnotation.Schema

/-!
# The schema definitions of transcripts

What a form's schema says about a stored transcript and about its revisions.
-/
namespace SubmissionAnnotation.TranscriptDefinitions

/-- The name of the definition of a completed transcript. -/
def transcriptName : String := "transcript"

/-- The name of the definition of a revision. -/
def revisionName : String := "transcriptRevision"

def dateCreatedKey : String := "dateCreated"

def dateModifiedKey : String := "dateModified"

def textProperty : Json :=
  .ofEntries [("type", .string "string")]

def hashProperty : Json :=
  .ofEntries [("type", .string "string"), ("minLength", .ofNat 8), ("maxLength", .ofNat 8),
    ("$comment", .string "set by the server")]

def dateTimeProperty : Json :=
  .ofEntries [("type", .string "string"), ("format", .string "date-time")]

/-- An object that needs a `value` and has no properties but the listed ones. -/
def closedObject (properties : List (String × Json)) : Json :=
  .ofEntries [("type", .string "object"), ("properties", .ofEntries properties),
    ("additionalProperties", .bool false), ("required", .ofStrings ["value"])]

def transcriptDefinition : Json :=
  closedObject [
    ("value", textProperty),
    ("engine", textProperty),
    (dateCreatedKey, dateTimeProperty),
    (dateModifiedKey, dateTimeProperty),
    ("languageCode", textProperty),
    ("hash", hashProperty),
    ("revisions", .ofEntries [
      ("type", .string "array"), ("items", SchemaDocument.definitionRef revisionName)])]

def revisionDefinition : Json :=
  closedObject [
    ("value", textProperty),
    ("engine", textProperty),
    (dateModifiedKey, dateTimeProperty),
    ("hash", hashProperty),
    ("languageCode", textProperty)]

end SubmissionAnnotation.TranscriptDefinitions
