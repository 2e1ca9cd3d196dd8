import SubmissionAnnotation.Action
import SubmissionAnnotation.Schema
import SubmissionAnnotation.Transcript
import SubmissionAnnotation.Transcript.Definitions
import SubmissionAnnotation.Transcript.Request

/-!
# Transcription of recordings

For every audio or video field of a form, transcription tracks one slot for a text written by hand
and one for each service. A change run turns requests of users into requests to engines;
`recordTranscript` takes back what an engine or a person hands in. Loading makes sure that no two
slots share a key.
-/
namespace SubmissionAnnotation

structure TranscriptionAction where
  destination : String
  labelLanguage : String
  /-- The fields that can be transcribed. -/
  fields : OrderedSet
  /-- The services that are offered besides the entry by hand. -/
  services : OrderedSet

/-- A submission after a change run, and the requests of the run in order. -/
structure ChangeRun where
  submission : Submission
  requests : List TranscriptionRequest

namespace TranscriptionAction

def actionId : String := "transcript"

/-- The middle part of every slot key. -/
def keyJoiner : String := "transcription"

/-- The services that are offered if the configuration names none. -/
def ownServices : List String := ["acme"]

/-- The fields of a form that can be transcribed. -/
def valuesForContent (form : FormDefinition) : List String :=
  form.namesOfType mediaRowTypes

def declaredServices (config : ActionConfig) : List String :=
  (config.servicesFor? actionId).getD ownServices

def discover (form : FormDefinition) (config : ActionConfig) : ActionParams :=
  ⟨valuesForContent form, declaredServices config⟩

def unloaded (config : ActionConfig) : TranscriptionAction where
  destination := config.destinationField
  labelLanguage := config.labelLanguage
  fields := .empty
  services := .empty

def params (a : TranscriptionAction) : ActionParams :=
  ⟨a.fields.items, a.services.items⟩

def matrix (a : TranscriptionAction) : FieldServiceMatrix :=
  .generate a.fields a.services keyJoiner

/-- Loads the parameters of a stored record, unless two slots would share a key: the outcome,
and the action afterwards. -/
def loadParams (a : TranscriptionAction) (record : Json) :
    Except ActionError Unit × TranscriptionAction :=
  match ActionParams.ofJson actionId record with
  | .error e => (.error e, a)
  | .ok params =>
    let fields := .ofList params.values
    let services := .ofList params.services
    match (FieldServiceMatrix.generate fields services keyJoiner).duplicateKey? with
    | none => (.ok (), { a with fields, services })
    | some key =>
      (.error (.malformedParameters actionId
        ("fields and services map more than one pair to '" ++ key ++ "'")), a)

def check (a : TranscriptionAction) (s : Submission) : Except ActionError SubmissionStatus :=
  evaluateBlock s a.destination a.matrix

/-- The request for one slot; the recording is taken from the submission before the change. -/
def request (s : Submission) (p : FieldServicePair) : TranscriptionRequest where
  field := p.field
  service := p.service
  key := p.key
  engine := engineName p.service
  media := s.get? p.field

/-- Advances the block of a submission and lists the requests that this makes. -/
def change (a : TranscriptionAction) (s : Submission) : Except ActionError ChangeRun := do
  let block ← s.supplemental a.destination
  let change := advanceBlock block a.matrix
  return ⟨s.withSupplemental a.destination change.block, change.requested.map (request s)⟩

def runChange (a : TranscriptionAction) (s : Submission) : Except ActionError Submission :=
  (a.change s).map ChangeRun.submission

/-- A change run with a recorder attached: its requests are recorded if it succeeds. -/
def changeInto (a : TranscriptionAction) (recorder : Recorder) (s : Submission) :
    Except ActionError Submission × Recorder :=
  match a.change s with
  | .ok run => (.ok run.submission, run.requests.foldl Recorder.dispatch recorder)
  | .error e => (.error e, recorder)

/-- The schema of a form with the definitions of transcripts and a reference to
them in each field. -/
def modifySchema (a : TranscriptionAction) (schema : Json) : Except ActionError Json := do
  let doc ← SchemaDocument.ofJson schema
  let doc ← doc.setDefinition TranscriptDefinitions.transcriptName
    TranscriptDefinitions.transcriptDefinition
  let doc ← doc.setDefinition TranscriptDefinitions.revisionName
    TranscriptDefinitions.revisionDefinition
  let doc ← a.fields.items.foldlM (fun doc field =>
    SchemaDocument.attachFieldProperty doc field actionId
      (SchemaDocument.definitionRef TranscriptDefinitions.transcriptName)) doc
  return doc.toJson

def engines (a : TranscriptionAction) : List Engine :=
  .withDetails (engineName manualService) "A human provided transcription" ::
    a.services.items.map fun service =>
      .withDescription (engineName service) ("Transcription by " ++ service)

/-- Every field adds the column of its transcript by hand. -/
def additionalField (a : TranscriptionAction) (field : String) : AdditionalField where
  type := "text"
  name := field ++ "/" ++ manualService
  label := field ++ " Transcript (" ++ a.labelLanguage ++ ")"
  path := [field, manualService]
  source := field
  settings := ⟨"auto", engineName manualService⟩

/--
The transcript that a slot holds after a text was handed in. A result is revised; a service may
otherwise only answer what was dispatched to it, while a text by hand is taken in any state.
-/
def nextTranscript (p : FieldServicePair) (current : Option FieldStatus) (input : TranscriptInput)
    (now : Instant) : Except ActionError TranscriptValue :=
  match current with
  | some (.completed result) =>
    match TranscriptValue.record.decode (.object result) with
    | .ok previous => .ok (previous.revise input (engineName p.service) now)
    | .error e =>
      .error (.invalidSubmission ("'" ++ p.key ++ "' holds an invalid transcript: " ++ e.message))
  | some .pending => .ok (.fresh input (engineName p.service) now)
  | other =>
    if p.isManual then .ok (.fresh input (engineName p.service) now)
    else
      .error (.invalidTransition p.key (match other with
        | none => "ABSENT"
        | some state => state.display))

/-- Writes a text that was handed in for a field and a service into the slot. -/
def recordTranscript (a : TranscriptionAction) (s : Submission) (field service : String)
    (input : TranscriptInput) (now : Instant) : Except ActionError Submission := do
  match a.matrix.find? field service with
  | none => throw (.unknownFieldService field service)
  | some p => do
    let block := (← s.supplemental a.destination).getD .empty
    let transcript ← nextTranscript p ((block.get? p.key).map FieldStatus.ofValue) input now
    return s.withSupplemental a.destination
      (block.insert p.key (TranscriptValue.record.encode transcript))

instance : ActionKind TranscriptionAction where
  id _ := actionId
  destination := destination
  params := params
  loadParams := loadParams
  matrix := matrix
  runChange := runChange
  modifySchema := modifySchema
  check := check
  engines a := .ok a.engines
  additionalFields a := a.fields.items.map a.additionalField
  kindId := actionId
  unloaded := unloaded
  discover := discover

/-- The action after a record was loaded, if the record is accepted. -/
def load (a : TranscriptionAction) (record : Json) : Except ActionError TranscriptionAction :=
  Action.load a record

end TranscriptionAction

end SubmissionAnnotation
