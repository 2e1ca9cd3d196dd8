import SubmissionAnnotation.Proofs.Dispatch

/-!
# Requests are delivered once

A recorder is used by change runs of actions, by whoever hands a request to it, and by
the engines' side, which takes what there is. A change run hands over nothing before it
knows that it succeeds, and then one request for every slot that a user asked for. So
each use adds to the requests that were ever handed over exactly those that it makes, at
the end; taking only moves them from the recorder into a batch. Over a run of uses the
batches and what the recorder still holds are together the requests that were made, each
of them once and in the order in which they were made.
-/
namespace SubmissionAnnotation

namespace TranscriptionAction

variable {a : TranscriptionAction} {s : Submission} {recorder : Recorder} {e : ActionError}

theorem fst_changeInto (a : TranscriptionAction) (recorder : Recorder) (s : Submission) :
    (a.changeInto recorder s).1 = a.runChange s := by
  rw [changeInto, runChange]
  cases a.change s <;> rfl

theorem recorder_changeInto_of_error (h : a.runChange s = .error e) :
    (a.changeInto recorder s).2 = recorder := by
  rw [runChange_eq_error_iff, ← change_eq_error_iff] at h
  rw [changeInto, h]

theorem IsLoaded.requests_changeInto_of_ok {after : Submission} (loaded : a.IsLoaded)
    (h : a.runChange s = .ok after) :
    (a.changeInto recorder s).2.requests = recorder.requests ++ a.askedRequests s := by
  obtain ⟨readable, -⟩ := runChange_eq_ok_iff.mp h
  rw [loaded.changeInto_of_readable readable]

end TranscriptionAction

inductive RecorderUse where
  /-- A change run of an action with the recorder attached. -/
  | change (a : TranscriptionAction) (s : Submission)
  /-- A request that is handed over directly. -/
  | dispatch (request : TranscriptionRequest)
  | take

namespace RecorderUse

/-- The action that runs, if any, took its parameters from a record. -/
def ByLoaded : RecorderUse → Prop
  | change a _ => a.IsLoaded
  | _ => True

/-- The requests that a use makes: those of all wishes if a change run succeeds,
and none if it fails. -/
def dispatched : RecorderUse → List TranscriptionRequest
  | change a s =>
    match a.runChange s with
    | .ok _ => a.askedRequests s
    | .error _ => []
  | dispatch request => [request]
  | take => []

end RecorderUse

structure Outbox where
  recorder : Recorder
  batches : List (List TranscriptionRequest)

namespace Outbox

open TranscriptionAction

def step (outbox : Outbox) : RecorderUse → Outbox
  | .change a s => { outbox with recorder := (a.changeInto outbox.recorder s).2 }
  | .dispatch request => { outbox with recorder := outbox.recorder.dispatch request }
  | .take =>
    let (batch, emptied) := outbox.recorder.take
    ⟨emptied, outbox.batches ++ [batch]⟩

def run (outbox : Outbox) (uses : List RecorderUse) : Outbox :=
  uses.foldl step outbox

/-- All requests that were ever handed over: those in batches, and those still held. -/
def history (outbox : Outbox) : List TranscriptionRequest :=
  outbox.batches.flatten ++ outbox.recorder.requests

theorem history_step {use : RecorderUse} (outbox : Outbox) (h : use.ByLoaded) :
    (outbox.step use).history = outbox.history ++ use.dispatched := by
  cases use with
  | change a s =>
    have requests : (a.changeInto outbox.recorder s).2.requests =
        outbox.recorder.requests ++ (RecorderUse.change a s).dispatched := by
      rw [RecorderUse.dispatched]
      cases hs : a.runChange s with
      | ok after => exact IsLoaded.requests_changeInto_of_ok h hs
      | error e => simp [recorder_changeInto_of_error hs]
    rw [history, step, requests, ← List.append_assoc, history]
  | dispatch request => simp [history, step, Recorder.dispatch, RecorderUse.dispatched]
  | take =>
    -- What was held is the last batch now, and nothing else is held.
    simp [history, step, RecorderUse.dispatched]

theorem history_run {uses : List RecorderUse} (outbox : Outbox)
    (h : ∀ use ∈ uses, use.ByLoaded) :
    (outbox.run uses).history = outbox.history ++ uses.flatMap RecorderUse.dispatched := by
  induction uses generalizing outbox with
  | nil => simp [run]
  | cons first rest ih =>
    obtain ⟨hfirst, hrest⟩ := List.forall_mem_cons.mp h
    calc
      (outbox.run (first :: rest)).history = ((outbox.step first).run rest).history := rfl
      _ = (outbox.step first).history ++ rest.flatMap RecorderUse.dispatched := ih _ hrest
      _ = outbox.history ++ (first :: rest).flatMap RecorderUse.dispatched := by
        rw [history_step outbox hfirst, List.append_assoc, List.flatMap_cons]

/-- Every request is delivered once. A change run that fails leaves the recorder as it was.
One that succeeds adds one request for each slot that a user asked for, in the order of the
matrix, with the recording that the submission held before the run. Taking hands out all that a
recorder holds and leaves nothing in it. And whatever uses a recorder sees, the batches taken
from it and then the requests it still holds are all requests that these uses made, in their
order. -/
theorem requests_delivered_once :
    (∀ a : TranscriptionAction, a.IsLoaded → ∀ (recorder : Recorder) (s : Submission),
      (a.changeInto recorder s).1 = a.runChange s ∧
      (∀ e, a.runChange s = .error e → (a.changeInto recorder s).2 = recorder) ∧
      ∀ after, a.runChange s = .ok after →
        (a.changeInto recorder s).2.requests = recorder.requests ++
          (a.matrix.pairs.filter fun p => isAsked (s.slot? a.destination p.key)).map fun p =>
            ⟨p.field, p.service, p.key, engineName p.service, s.get? p.field⟩) ∧
    (∀ recorder : Recorder,
      recorder.take.1 = recorder.requests ∧ recorder.take.2.requests = []) ∧
    ∀ (outbox : Outbox) (uses : List RecorderUse), (∀ use ∈ uses, use.ByLoaded) →
      let used := outbox.run uses
      used.batches.flatten ++ used.recorder.requests =
        outbox.batches.flatten ++ outbox.recorder.requests ++
          uses.flatMap RecorderUse.dispatched := by
  refine ⟨?_, ?_, ?_⟩
  · intro a loaded recorder s
    refine ⟨a.fst_changeInto recorder s, ?_, ?_⟩
    · exact fun e h => recorder_changeInto_of_error h
    · exact fun after h => loaded.requests_changeInto_of_ok h
  · exact fun recorder => ⟨recorder.fst_take, recorder.requests_snd_take⟩
  · exact fun outbox uses h => outbox.history_run h

/-- A run for a wish and one that fails, before the first batch is taken, and a request that
is handed over directly after it. -/
theorem requests_delivered_once_batch_and_rest :
    let wish : TranscriptionRequest :=
      ⟨"clip", "acme", "clip_transcription_acme", "engines/transcript_acme",
        some (.string "clip.mp3")⟩
    let other : TranscriptionRequest :=
      ⟨"talk", "acme", "talk_transcription_acme", "engines/transcript_acme", none⟩
    let change := clipAction.changeInto ⟨[other]⟩
    let used := (⟨.empty, []⟩ : Outbox).run
      [.change clipAction clipRequested, .change clipAction clipUnreadable, .take, .dispatch other]
    clipAction.IsLoaded ∧
    (change clipRequested).2.requests = [other, wish] ∧
    (change clipUnreadable).2 = ⟨[other]⟩ ∧
    used.batches = [[wish]] ∧ used.recorder.requests = [other] ∧
    used.batches.flatten ++ used.recorder.requests = [wish, other] := by
  intro wish other change used
  have loaded := isLoaded_clipAction
  obtain ⟨changes, -, runs⟩ := requests_delivered_once
  obtain ⟨-, -, asked⟩ := changes _ loaded ⟨[other]⟩ clipRequested
  obtain ⟨-, kept, -⟩ := changes _ loaded ⟨[other]⟩ clipUnreadable
  refine ⟨loaded, asked _ rfl, kept _ rfl, rfl, rfl, runs ⟨.empty, []⟩ _ ?_⟩
  simp [RecorderUse.ByLoaded, loaded]

end Outbox

end SubmissionAnnotation
