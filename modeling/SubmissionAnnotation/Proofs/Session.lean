import SubmissionAnnotation.Proofs.Loading
import SubmissionAnnotation.Proofs.Settling

/-!
# Sessions with one action

A session is an action at work on one submission, with a recorder that takes its
requests. It goes on by steps: parameters are loaded, the change step runs, a text
is handed in, or a user asks for a slot. A step that fails leaves everything as it
was. Whatever a step writes is a new block at the destination, so each step is
described by the block that it leaves.
-/
namespace SubmissionAnnotation

inductive Step where
  /-- New parameters are loaded from a stored record. -/
  | load (record : Json)
  | change
  /-- A text is handed in for a field and a service. -/
  | record (field service : String) (input : TranscriptInput) (now : Instant)
  /-- A user asks for the slot with this key, if the action has one. -/
  | request (key : String)

namespace Step

def isLoad : Step → Bool
  | load _ => true
  | _ => false

def isRequest : Step → Bool
  | request _ => true
  | _ => false

end Step

structure Session where
  action : TranscriptionAction
  submission : Submission
  recorder : Recorder

namespace Session

/-- What an attempt leaves behind: its result, or what there was before if it failed. -/
def orKeep {α : Type} (old : α) : Except ActionError α → α
  | .ok new => new
  | .error _ => old

def step (σ : Session) : Step → Session
  | .load record => { σ with action := (σ.action.loadParams record).2 }
  | .change =>
    let (outcome, recorder) := σ.action.changeInto σ.recorder σ.submission
    { σ with submission := orKeep σ.submission outcome, recorder := recorder }
  | .record field service input now =>
    { σ with
      submission := orKeep σ.submission
        (σ.action.recordTranscript σ.submission field service input now) }
  | .request key =>
    if key ∈ σ.action.matrix.keys then
      { σ with
        submission := orKeep σ.submission
          (σ.submission.withSlot σ.action.destination key FieldStatus.requestedByUser.toValue) }
    else σ

def run (σ : Session) (steps : List Step) : Session :=
  steps.foldl step σ

def block (σ : Session) : SupplementalBlock :=
  σ.submission.blockAt σ.action.destination

def slot? (σ : Session) (key : String) : Option Json :=
  σ.submission.slot? σ.action.destination key

@[simp] theorem run_nil (σ : Session) : σ.run [] = σ := rfl

@[simp] theorem run_cons (σ : Session) (first : Step) (rest : List Step) :
    σ.run (first :: rest) = (σ.step first).run rest := rfl

theorem run_append (σ : Session) (before after : List Step) :
    σ.run (before ++ after) = (σ.run before).run after :=
  List.foldl_append

/-- What every step of a run preserves holds after the run. -/
theorem run_induction {P : Session → Prop} {allowed : Step → Prop}
    (keep : ∀ σ step, allowed step → P σ → P (σ.step step)) {σ : Session} {steps : List Step}
    (h : ∀ step ∈ steps, allowed step) (hσ : P σ) : P (σ.run steps) := by
  induction steps generalizing σ with
  | nil => exact hσ
  | cons first rest ih =>
    refine ih (fun step hs => h step (List.mem_cons_of_mem first hs)) ?_
    exact keep σ first (h first List.mem_cons_self) hσ

/-! ## What a step leaves -/

variable {σ : Session}

@[simp] theorem destination_step (σ : Session) (step : Step) :
    (σ.step step).action.destination = σ.action.destination := by
  cases step with
  | load record => exact σ.action.destination_loadParams record
  | change => rfl
  | record field service input now => rfl
  | request key =>
    simp only [Session.step]
    split <;> rfl

theorem destination_run (σ : Session) (steps : List Step) :
    (σ.run steps).action.destination = σ.action.destination := by
  induction steps generalizing σ with
  | nil => rfl
  | cons first rest ih => rw [run_cons, ih, destination_step]

theorem action_step {step : Step} (h : step.isLoad = false) : (σ.step step).action = σ.action := by
  cases step with
  | load record => cases h
  | change => rfl
  | record field service input now => rfl
  | request key =>
    simp only [Session.step]
    split <;> rfl

theorem action_run {steps : List Step} (h : ∀ step ∈ steps, step.isLoad = false) :
    (σ.run steps).action = σ.action :=
  run_induction (P := fun τ => τ.action = σ.action)
    (fun _ _ hs ht => (action_step hs).trans ht) h rfl

theorem slot?_step_of_eq {step : Step} (h : (σ.step step).submission = σ.submission)
    (key : String) : (σ.step step).slot? key = σ.slot? key := by
  rw [slot?, h, destination_step]
  rfl

theorem slot?_step_of_withSupplemental {step : Step} {block : SupplementalBlock}
    (h : (σ.step step).submission = σ.submission.withSupplemental σ.action.destination block)
    (key : String) : (σ.step step).slot? key = block.get? key := by
  rw [slot?, h, destination_step, Submission.slot?_withSupplemental]

@[simp] theorem submission_step_load (σ : Session) (record : Json) :
    (σ.step (.load record)).submission = σ.submission := rfl

theorem step_change_of_not_readable (h : ¬ σ.submission.Readable σ.action.destination) :
    σ.step .change = σ := by
  obtain ⟨e, he⟩ := TranscriptionAction.changeInto_of_not_readable h σ.recorder
  simp [step, he, orKeep]

theorem submission_step_change_of_readable (h : σ.submission.Readable σ.action.destination) :
    (σ.step .change).submission =
      σ.submission.withSupplemental σ.action.destination (σ.action.advanced σ.block).block := by
  have hc := TranscriptionAction.change_of_readable h
  simp [step, TranscriptionAction.changeInto, hc, orKeep, block]

theorem submission_step_change (σ : Session) :
    (σ.step .change).submission = σ.submission ∨
    σ.submission.Readable σ.action.destination ∧
      (σ.step .change).submission =
        σ.submission.withSupplemental σ.action.destination (σ.action.advanced σ.block).block := by
  by_cases h : σ.submission.Readable σ.action.destination
  · exact Or.inr ⟨h, submission_step_change_of_readable h⟩
  · exact Or.inl (congrArg submission (step_change_of_not_readable h))

theorem slot?_step_change (h : σ.submission.Readable σ.action.destination) (key : String) :
    (σ.step .change).slot? key =
      if key ∈ σ.action.matrix.keys then some (advancedEntry (σ.slot? key)) else σ.slot? key :=
  (slot?_step_of_withSupplemental (submission_step_change_of_readable h) key).trans
    (get?_advanceBlock _ _ _)

section HandIn

variable {field service : String} {input : TranscriptInput} {now : Instant}

theorem submission_step_record_of_error {e : ActionError}
    (h : σ.action.recordTranscript σ.submission field service input now = .error e) :
    (σ.step (.record field service input now)).submission = σ.submission := by
  simp [step, h, orKeep]

theorem submission_step_record_of_ok {after : Submission}
    (h : σ.action.recordTranscript σ.submission field service input now = .ok after) :
    (σ.step (.record field service input now)).submission = after := by
  simp [step, h, orKeep]

end HandIn

theorem submission_step_record (σ : Session) (field service : String) (input : TranscriptInput)
    (now : Instant) :
    let after := (σ.step (.record field service input now)).submission
    after = σ.submission ∨
    σ.submission.Readable σ.action.destination ∧
    ∃ p t, σ.action.matrix.find? field service = some p ∧
      σ.action.answer σ.submission p input now = .ok t ∧
      σ.action.recordTranscript σ.submission field service input now = .ok after ∧
      after = σ.submission.withSupplemental σ.action.destination
        (σ.block.insert p.key (TranscriptValue.record.encode t)) := by
  rcases σ.action.recordTranscript_cases σ.submission field service input now with
    ⟨-, h⟩ | ⟨e, -, h⟩ | ⟨p, e, -, -, h⟩ | ⟨p, t, hp, hr, ha, h⟩
  · exact Or.inl (submission_step_record_of_error h)
  · exact Or.inl (submission_step_record_of_error h)
  · exact Or.inl (submission_step_record_of_error h)
  · have hs := submission_step_record_of_ok h
    exact Or.inr ⟨hr, p, t, hp, ha, hs ▸ h, hs⟩

theorem submission_step_request (σ : Session) (key : String) :
    (σ.step (.request key)).submission = σ.submission ∨
    σ.submission.Readable σ.action.destination ∧ key ∈ σ.action.matrix.keys ∧
      (σ.step (.request key)).submission = σ.submission.withSupplemental σ.action.destination
        (σ.block.insert key FieldStatus.requestedByUser.toValue) := by
  by_cases hk : key ∈ σ.action.matrix.keys
  · rcases σ.submission.readable_or_error σ.action.destination with hr | ⟨e, he⟩
    · have hw := Submission.withSlot_of_readable hr key FieldStatus.requestedByUser.toValue
      exact Or.inr ⟨hr, hk, by simp [step, hk, hw, orKeep, block]⟩
    · exact Or.inl (by simp [step, hk, Submission.withSlot, he, orKeep, bind, Except.bind])
  · exact Or.inl (by simp [step, hk])

theorem slot?_step_record (σ : Session) (field service : String) (input : TranscriptInput)
    (now : Instant) (key : String) :
    let τ := σ.step (.record field service input now)
    τ.slot? key = σ.slot? key ∨
    ∃ p t, σ.action.matrix.find? field service = some p ∧ key = p.key ∧
      σ.action.answer σ.submission p input now = .ok t ∧
      σ.action.recordTranscript σ.submission field service input now = .ok τ.submission ∧
      τ.slot? key = some (TranscriptValue.record.encode t) := by
  intro τ
  rcases submission_step_record σ field service input now with h | ⟨-, p, t, hp, ha, hr, h⟩
  · exact Or.inl (slot?_step_of_eq h key)
  · have hslot := slot?_step_of_withSupplemental h key
    rw [OrderedMap.get?_insert] at hslot
    by_cases hk : key = p.key
    · exact Or.inr ⟨p, t, hp, hk, ha, hr, hslot.trans (if_pos hk)⟩
    · exact Or.inl (hslot.trans (if_neg hk))

theorem slot?_step_request (σ : Session) (asked key : String) :
    (σ.step (.request asked)).slot? key = σ.slot? key ∨
    (σ.step (.request asked)).slot? key = some FieldStatus.requestedByUser.toValue := by
  rcases submission_step_request σ asked with h | ⟨-, -, h⟩
  · exact Or.inl (slot?_step_of_eq h key)
  · have hslot := slot?_step_of_withSupplemental h key
    rw [OrderedMap.get?_insert] at hslot
    by_cases hk : key = asked
    · exact Or.inr (hslot.trans (if_pos hk))
    · exact Or.inl (hslot.trans (if_neg hk))

/-- Every step leaves the submission or replaces its block by one that goes on from it. -/
theorem submission_step (σ : Session) (step : Step) :
    (σ.step step).submission = σ.submission ∨
    σ.submission.Readable σ.action.destination ∧ ∃ block, σ.block.keys <+: block.keys ∧
      (σ.step step).submission = σ.submission.withSupplemental σ.action.destination block := by
  cases step with
  | load record => exact Or.inl rfl
  | change =>
    rcases submission_step_change σ with h | ⟨hr, h⟩
    · exact Or.inl h
    · exact Or.inr ⟨hr, _, keys_prefix_advanceBlock (some σ.block) σ.action.matrix, h⟩
  | record field service input now =>
    rcases submission_step_record σ field service input now with h | ⟨hr, p, t, -, -, -, h⟩
    · exact Or.inl h
    · exact Or.inr ⟨hr, _, OrderedMap.keys_prefix_insert σ.block _ _, h⟩
  | request key =>
    rcases submission_step_request σ key with h | ⟨hr, -, h⟩
    · exact Or.inl h
    · exact Or.inr ⟨hr, _, OrderedMap.keys_prefix_insert σ.block _ _, h⟩

/-- No step, not even the wish of a user, loses or moves a key or touches another entry. -/
theorem extends_step (σ : Session) (step : Step) :
    Submission.Extends σ.action.destination σ.submission (σ.step step).submission := by
  rcases submission_step σ step with h | ⟨hr, block, hb, h⟩
  · rw [h]
    exact .refl _ _
  · rw [h]
    exact Submission.extends_withSupplemental hr hb

theorem readable_step (h : σ.submission.Readable σ.action.destination) (step : Step) :
    (σ.step step).submission.Readable σ.action.destination := by
  rcases submission_step σ step with hs | ⟨-, block, -, hs⟩
  · rwa [hs]
  · rw [hs]
    exact Submission.readable_withSupplemental _ _ _

end Session

end SubmissionAnnotation
