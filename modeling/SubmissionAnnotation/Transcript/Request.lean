import SubmissionAnnotation.Json

/-!
# Requests to engines

A change run hands one request to the dispatcher for every slot that it moves from requested to
pending. A recorder is a dispatcher that keeps the requests in the order in which they came, until
they are taken.
-/
namespace SubmissionAnnotation

/-- The name of the engine that serves a service. -/
def engineName (service : String) : String :=
  "engines/transcript_" ++ service

structure TranscriptionRequest where
  field : String
  service : String
  /-- The key of the slot that the result belongs to. -/
  key : String
  engine : String
  /-- What the submission holds for the field, if anything. -/
  media : Option Json

namespace TranscriptionRequest

def toJson (r : TranscriptionRequest) : Json :=
  .ofEntries [("field", .string r.field), ("service", .string r.service), ("key", .string r.key),
    ("engine", .string r.engine), ("media", r.media.getD .null)]

end TranscriptionRequest

structure Recorder where
  requests : List TranscriptionRequest

namespace Recorder

def empty : Recorder := ⟨[]⟩

def dispatch (r : Recorder) (request : TranscriptionRequest) : Recorder :=
  ⟨r.requests ++ [request]⟩

/-- The requests so far, and the recorder without them. -/
def take (r : Recorder) : List TranscriptionRequest × Recorder :=
  (r.requests, empty)

@[simp] theorem fst_take (r : Recorder) : r.take.1 = r.requests := rfl

@[simp] theorem requests_snd_take (r : Recorder) : r.take.2.requests = [] := rfl

def size (r : Recorder) : Nat :=
  r.requests.length

def isEmpty (r : Recorder) : Bool :=
  r.requests.isEmpty

@[simp] theorem requests_foldl_dispatch (r : Recorder) (rs : List TranscriptionRequest) :
    (rs.foldl dispatch r).requests = r.requests ++ rs := by
  induction rs generalizing r with
  | nil => simp
  | cons request rs ih => simp [ih, dispatch]

end Recorder

end SubmissionAnnotation
