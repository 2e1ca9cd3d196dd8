import SubmissionAnnotation.Proofs.Session

/-!
# Slots only move forward

Apart from the wishes of users, a session can do three things to a slot: a change
run writes a missing one or dispatches a requested one, and a text that is handed in
completes it. Nothing else changes, no key is lost and no key moves, whatever
parameters are loaded in between. So a result stays a result, and a pending slot
waits for its result.
-/
namespace SubmissionAnnotation

/-- What one step of the session `σ` may make of the slot with this key. -/
inductive SlotMove (σ : Session) (key : String) : Step → Option Json → Option Json → Prop
  | keep (step : Step) (entry : Option Json) : SlotMove σ key step entry entry
  | appear (tracked : key ∈ σ.action.matrix.keys) :
    SlotMove σ key .change none (some FieldStatus.notRequested.toValue)
  | dispatch (tracked : key ∈ σ.action.matrix.keys) :
    SlotMove σ key .change (some FieldStatus.requestedByUser.toValue)
      (some FieldStatus.pending.toValue)
  /-- Whatever the slot held, a text that was handed in for it with success is its transcript. -/
  | complete {field service : String} {input : TranscriptInput} {now : Instant}
    {p : FieldServicePair} {after : Submission} (entry : Option Json) (t : TranscriptValue)
    (addressed : σ.action.matrix.find? field service = some p) (same : key = p.key)
    (written : σ.action.recordTranscript σ.submission field service input now = .ok after) :
    SlotMove σ key (.record field service input now) entry (some (TranscriptValue.record.encode t))

def IsResult (entry : Option Json) : Prop :=
  ∃ result, entry = some (.object result)

/-- A slot that waits for its result or holds it. -/
def IsDispatched (entry : Option Json) : Prop :=
  entry = some FieldStatus.pending.toValue ∨ IsResult entry

theorem isResult_encode (t : TranscriptValue) : IsResult (some (TranscriptValue.record.encode t)) :=
  ⟨_, rfl⟩

namespace SlotMove

variable {σ : Session} {key : String} {step : Step} {entry next : Option Json}

theorem isResult (h : SlotMove σ key step entry next) (he : IsResult entry) : IsResult next := by
  obtain ⟨result, rfl⟩ := he
  cases h with
  | keep => exact ⟨result, rfl⟩
  | complete _ t => exact isResult_encode t

theorem isDispatched (h : SlotMove σ key step entry next) (he : IsDispatched entry) :
    IsDispatched next := by
  cases h with
  | keep => exact he
  | appear => rcases he with he | ⟨result, he⟩ <;> cases he
  | dispatch => exact Or.inl rfl
  | complete _ t => exact Or.inr (isResult_encode t)

end SlotMove

namespace Session

open TranscriptionAction (clipAction clipRequested)

variable {σ : Session} {steps : List Step} {key : String}

theorem slotMove_change (σ : Session) (key : String) :
    SlotMove σ key .change (σ.slot? key) ((σ.step .change).slot? key) := by
  by_cases h : σ.submission.Readable σ.action.destination
  · rw [slot?_step_change h]
    by_cases hk : key ∈ σ.action.matrix.keys
    · rw [if_pos hk]
      rcases advancedEntry_cases (σ.slot? key) with ⟨ho, hn⟩ | ⟨ho, hn⟩ | ho
      · rw [hn, ho]
        exact .appear hk
      · rw [hn, ho]
        exact .dispatch hk
      · rw [← ho]
        exact .keep _ _
    · rw [if_neg hk]
      exact .keep _ _
  · rw [step_change_of_not_readable h]
    exact .keep _ _

theorem slotMove_record (σ : Session) (key field service : String) (input : TranscriptInput)
    (now : Instant) :
    SlotMove σ key (.record field service input now) (σ.slot? key)
      ((σ.step (.record field service input now)).slot? key) := by
  rcases slot?_step_record σ field service input now key with h | ⟨p, t, hp, hk, -, hr, h⟩
  · rw [h]
    exact .keep _ _
  · rw [h]
    exact .complete _ t hp hk hr

theorem slotMove_step {step : Step} (own : step.isRequest = false) (σ : Session) (key : String) :
    SlotMove σ key step (σ.slot? key) ((σ.step step).slot? key) := by
  cases step with
  | load record =>
    rw [slot?_step_of_eq (submission_step_load σ record)]
    exact .keep _ _
  | change => exact slotMove_change σ key
  | record field service input now => exact slotMove_record σ key field service input now
  | request key' => cases own

theorem isResult_run (own : ∀ step ∈ steps, step.isRequest = false) (h : IsResult (σ.slot? key)) :
    IsResult ((σ.run steps).slot? key) :=
  run_induction (P := fun τ => IsResult (τ.slot? key))
    (fun τ _ hs ht => (slotMove_step hs τ key).isResult ht) own h

theorem isDispatched_run (own : ∀ step ∈ steps, step.isRequest = false)
    (h : IsDispatched (σ.slot? key)) : IsDispatched ((σ.run steps).slot? key) :=
  run_induction (P := fun τ => IsDispatched (τ.slot? key))
    (fun τ _ hs ht => (slotMove_step hs τ key).isDispatched ht) own h

/-- Along every run of loads, change runs and texts handed in, each step keeps all
keys in their places and all entries beside the block, and moves every slot along
one of the edges of `SlotMove`. Hence a result is a result at every later point of
the run, and what is pending is at every later point still pending or a result. -/
theorem slots_only_move_forward (σ : Session) (steps : List Step)
    (own : ∀ step ∈ steps, step.isRequest = false) :
    (∀ before step after, steps = before ++ step :: after →
      Submission.Extends σ.action.destination (σ.run before).submission
        ((σ.run before).step step).submission ∧
      ∀ key, SlotMove (σ.run before) key step ((σ.run before).slot? key)
        (((σ.run before).step step).slot? key)) ∧
    ∀ before later after key, steps = before ++ later ++ after →
      (IsResult ((σ.run before).slot? key) → IsResult ((σ.run (before ++ later)).slot? key)) ∧
      ((σ.run before).slot? key = some FieldStatus.pending.toValue →
        (σ.run (before ++ later)).slot? key = some FieldStatus.pending.toValue ∨
          IsResult ((σ.run (before ++ later)).slot? key)) := by
  constructor
  · rintro before step after rfl
    have hd : (σ.run before).action.destination = σ.action.destination := destination_run σ before
    refine ⟨hd ▸ extends_step (σ.run before) step, fun key => ?_⟩
    exact slotMove_step (own step (by simp)) (σ.run before) key
  · rintro before later after key rfl
    have hl : ∀ step ∈ later, step.isRequest = false := fun step hs => own step (by simp [hs])
    rw [run_append]
    exact ⟨isResult_run hl, fun h => isDispatched_run hl (Or.inl h)⟩

/-- A user asked for a transcript and a change run dispatched the request. The
parameters are emptied, so that the service cannot answer any more; what is
dispatched stays so. -/
theorem slots_only_move_forward_unloaded :
    let key := "clip_transcription_acme"
    let later : List Step :=
      [.load (ActionParams.toJson ⟨[], []⟩), .record "clip" "acme" ⟨"hello", "en"⟩ ⟨0, 0⟩, .change]
    let σ : Session := ⟨clipAction, clipRequested, .empty⟩
    (∀ step ∈ [Step.change] ++ later, step.isRequest = false) ∧
    (σ.run [.change]).slot? key = some FieldStatus.pending.toValue ∧
    ((σ.run ([.change] ++ later)).slot? key = some FieldStatus.pending.toValue ∨
      IsResult ((σ.run ([.change] ++ later)).slot? key)) := by
  intro key later σ
  have own : ∀ step ∈ [Step.change] ++ later, step.isRequest = false := by decide
  have pending : (σ.run [.change]).slot? key = some FieldStatus.pending.toValue := rfl
  obtain ⟨-, forward⟩ := slots_only_move_forward σ ([Step.change] ++ later) own
  exact ⟨own, pending, (forward [.change] later [] key (by simp)).2 pending⟩

end Session

end SubmissionAnnotation
