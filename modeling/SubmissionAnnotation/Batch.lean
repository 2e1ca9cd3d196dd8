import SubmissionAnnotation.Registry
import SubmissionAnnotation.Transcription

/-!
# Batches of submissions

An action is checked against, or run over, every record of a batch. Records are independent: one
that cannot be processed is reported and handed back as it came, and the results stand in the order
of the records.
-/
namespace SubmissionAnnotation

universe u

namespace Batch

/-- The registry of all actions that come with this library. -/
def defaultRegistry (config : ActionConfig) : ActionRegistry :=
  (ActionRegistry.ofConfig config).register (.ofKind TranscriptionAction)

/-- What a check says about one record. -/
inductive CheckOutcome where
  | status (verdict : SubmissionStatus)
  | failed (error : ActionError)
  deriving DecidableEq, Repr

def CheckOutcome.toJson : CheckOutcome → Json
  | .status verdict => SubmissionStatus.codec.encode verdict
  | .failed e => .ofEntries [("error", .string e.message)]

/-- A record that a run left as it was. -/
structure RunFailure where
  /-- The position of the record in the batch. -/
  index : Nat
  error : ActionError
  deriving DecidableEq, Repr

def RunFailure.toJson (f : RunFailure) : Json :=
  .ofEntries [("index", .ofNat f.index), ("error", .string f.error.message)]

structure RunReport where
  /-- How many records needed the action before the run. -/
  changed : Nat
  /-- The records after the run, in the order of the batch. -/
  submissions : List Json
  failed : List RunFailure

namespace RunReport

def empty : RunReport := ⟨0, [], []⟩

def toJson (r : RunReport) : Json :=
  .ofEntries [("changed", .ofNat r.changed), ("submissions", .array r.submissions),
    ("failed", .array (r.failed.map RunFailure.toJson))]

/-- The report with the result of one more record: whether it needed the action,
and what it became. -/
def add (r : RunReport) (index : Nat) (record : Json) : Except ActionError (Bool × Json) → RunReport
  | .ok (needed, after) =>
    { r with
      changed := r.changed + needed.toNat
      submissions := r.submissions ++ [after] }
  | .error e =>
    { r with
      submissions := r.submissions ++ [record]
      failed := r.failed ++ [⟨index, e⟩] }

end RunReport

variable {α : Type u} [Action α]

def checkOne (a : α) (record : Json) : CheckOutcome :=
  match Submission.ofJson record >>= Action.check a with
  | .ok verdict => .status verdict
  | .error e => .failed e

def check (a : α) (batch : List Json) : List CheckOutcome :=
  batch.map (checkOne a)

/-- Checks a record and runs the action over it. -/
def runOne (a : α) (record : Json) : Except ActionError (Bool × Json) := do
  let s ← Submission.ofJson record
  let status ← Action.check a s
  let after ← Action.runChange a s
  return (status.isActionNeeded, after.toJson)

def run (a : α) (batch : List Json) : RunReport :=
  batch.zipIdx.foldl
    (fun report (record, index) => report.add index record (runOne a record)) .empty

/-- The engines of an action by name, and the columns that it adds. -/
def capabilities (a : α) : Except ActionError Json := do
  let engines ← Action.engines a
  let listed := engines.map fun e => (e.name, EngineDescriptor.record.encode e.descriptor)
  return .ofEntries [
    ("engines", .object (.ofList listed)),
    ("addl_fields", .array ((Action.additionalFields a).map AdditionalField.record.encode))]

/-- The records of a document: the items of an array, or any other value alone. -/
def submissionsOf : Json → List Json
  | .array items => items
  | v => [v]

end Batch

end SubmissionAnnotation
