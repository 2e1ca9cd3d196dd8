import SubmissionAnnotation.Transcription
import SubmissionAnnotation.Proofs.Advance

/-!
# Verdict and change agree, and one change settles

The verdict and the change step fail on the same records. On all others both come
down to the same question, whether every slot of the matrix is settled: then the
verdict is to pass and the change step gives its argument back, and otherwise it
gives another record. What the change step gives back is settled, so that a second
run changes nothing and asks no engine for anything.
-/
namespace SubmissionAnnotation

section Verdict

variable {s : Submission} {destination : String} {matrix : FieldServiceMatrix}
  {block : SupplementalBlock} {found : Option SupplementalBlock} {e : ActionError}

theorem evaluateBlock_eq_error_iff :
    evaluateBlock s destination matrix = .error e ↔ s.supplemental destination = .error e := by
  unfold evaluateBlock
  cases h : s.supplemental destination with
  | error e' => simp [bind, Except.bind]
  | ok found => cases found <;> exact ⟨nofun, nofun⟩

theorem evaluateBlock_of_supplemental (h : s.supplemental destination = .ok (some block)) :
    evaluateBlock s destination matrix = .ok (evaluateSlots block matrix.pairs) := by
  unfold evaluateBlock
  rw [h]
  rfl

/-- A submission without a block never passes, even if there is no slot to look for. -/
theorem evaluateBlock_of_supplemental_none (h : s.supplemental destination = .ok none) :
    evaluateBlock s destination matrix = .ok .actionNeeded := by
  unfold evaluateBlock
  rw [h]
  rfl

theorem evaluateBlock_eq_passes_iff :
    evaluateBlock s destination matrix = .ok .passes ↔
      ∃ block, s.supplemental destination = .ok (some block) ∧
        ∀ p ∈ matrix.pairs, Settled block p.key := by
  cases h : s.supplemental destination with
  | error e =>
    rw [evaluateBlock_eq_error_iff.mpr h]
    exact ⟨nofun, by simp⟩
  | ok found =>
    cases found with
    | none =>
      rw [evaluateBlock_of_supplemental_none h]
      simp
    | some block =>
      rw [evaluateBlock_of_supplemental h]
      simp [evaluateSlots_eq_passes_iff]

theorem evaluateBlock_eq_actionNeeded_iff (h : s.supplemental destination = .ok found) :
    evaluateBlock s destination matrix = .ok .actionNeeded ↔
      ¬ evaluateBlock s destination matrix = .ok .passes := by
  cases hv : evaluateBlock s destination matrix with
  | error e =>
    rw [evaluateBlock_eq_error_iff.mp hv] at h
    cases h
  | ok verdict => cases verdict <;> simp

end Verdict

namespace TranscriptionAction

variable {a : TranscriptionAction} {s after : Submission} {e : ActionError}

def advanced (a : TranscriptionAction) (block : SupplementalBlock) : BlockChange :=
  advanceBlock (some block) a.matrix

theorem change_of_readable (h : s.Readable a.destination) :
    a.change s = .ok ⟨s.withSupplemental a.destination (a.advanced (s.blockAt a.destination)).block,
      (a.advanced (s.blockAt a.destination)).requested.map (request s)⟩ := by
  obtain ⟨found, hf⟩ := h
  rw [Submission.blockAt_of_supplemental hf]
  unfold change
  rw [hf]
  rfl

theorem change_eq_error_iff : a.change s = .error e ↔ s.supplemental a.destination = .error e := by
  unfold change
  cases s.supplemental a.destination with
  | error e' => simp [bind, Except.bind]
  | ok found => exact ⟨nofun, nofun⟩

theorem changeInto_of_not_readable (h : ¬ s.Readable a.destination) (recorder : Recorder) :
    ∃ e, a.changeInto recorder s = (.error e, recorder) := by
  obtain ⟨e, he⟩ := (s.readable_or_error a.destination).resolve_left h
  exact ⟨e, by rw [changeInto, change_eq_error_iff.mpr he]⟩

theorem runChange_of_readable (h : s.Readable a.destination) :
    a.runChange s =
      .ok (s.withSupplemental a.destination (a.advanced (s.blockAt a.destination)).block) := by
  rw [runChange, change_of_readable h]
  rfl

theorem runChange_eq_error_iff :
    a.runChange s = .error e ↔ s.supplemental a.destination = .error e := by
  rw [← change_eq_error_iff, runChange]
  cases a.change s <;> simp [Except.map]

theorem runChange_eq_ok_iff :
    a.runChange s = .ok after ↔ s.Readable a.destination ∧
      after = s.withSupplemental a.destination (a.advanced (s.blockAt a.destination)).block := by
  rcases s.readable_or_error a.destination with h | ⟨e, h⟩
  · rw [runChange_of_readable h]
    simp [h, eq_comm]
  · rw [runChange_eq_error_iff.mpr h]
    exact ⟨nofun, fun ⟨readable, _⟩ => absurd readable (Submission.not_readable_of_error h)⟩

theorem check_eq_error_iff : a.check s = .error e ↔ s.supplemental a.destination = .error e :=
  evaluateBlock_eq_error_iff

/-- A submission passes if and only if the change step has nothing to write into it. -/
theorem check_eq_passes_iff : a.check s = .ok .passes ↔ a.runChange s = .ok s := by
  rw [check, evaluateBlock_eq_passes_iff, runChange_eq_ok_iff]
  constructor
  · rintro ⟨block, hb, hs⟩
    have hkeep : (a.advanced block).block = block := block_advanceBlock_eq_iff.mpr hs
    rw [Submission.blockAt_of_supplemental hb, Option.getD_some, hkeep]
    exact ⟨⟨_, hb⟩, (Submission.withSupplemental_eq_self_iff.mpr hb).symm⟩
  · rintro ⟨-, hs⟩
    have hb := Submission.withSupplemental_eq_self_iff.mp hs.symm
    have hkeep : (a.advanced (s.blockAt a.destination)).block = s.blockAt a.destination :=
      (Submission.blockAt_of_supplemental hb).symm
    rw [hkeep] at hb
    exact ⟨_, hb, block_advanceBlock_eq_iff.mp hkeep⟩

theorem change_withSupplemental (a : TranscriptionAction) (s : Submission)
    (block : SupplementalBlock) :
    a.change (s.withSupplemental a.destination block) =
      .ok ⟨s.withSupplemental a.destination (a.advanced block).block,
        (a.advanced block).requested.map (request (s.withSupplemental a.destination block))⟩ := by
  rw [change_of_readable (Submission.readable_withSupplemental s a.destination block),
    Submission.blockAt_withSupplemental, Submission.withSupplemental_withSupplemental]

theorem runChange_withSupplemental (a : TranscriptionAction) (s : Submission)
    (block : SupplementalBlock) :
    a.runChange (s.withSupplemental a.destination block) =
      .ok (s.withSupplemental a.destination (a.advanced block).block) := by
  rw [runChange, change_withSupplemental]
  rfl

/-- What a change run gives back has nothing left to change. -/
theorem change_of_runChange (h : a.runChange s = .ok after) : a.change after = .ok ⟨after, []⟩ := by
  obtain ⟨-, rfl⟩ := runChange_eq_ok_iff.mp h
  have hs : a.advanced (a.advanced (s.blockAt a.destination)).block =
      .start (a.advanced (s.blockAt a.destination)).block :=
    advanceBlock_of_settled (settled_advanceBlock _ a.matrix)
  rw [change_withSupplemental, hs]
  rfl

def clipAction : TranscriptionAction := ⟨"details", "en", .ofList ["clip"], .ofList ["acme"]⟩

/-- A user asked the service for a transcript; there is no slot for a text by hand yet. -/
def clipBlock : SupplementalBlock :=
  ⟨[("clip_transcription_acme", FieldStatus.requestedByUser.toValue)]⟩

def clipRequested : Submission :=
  ⟨⟨[("clip", .string "clip.mp3"), ("details", .object clipBlock)]⟩⟩

def clipUnreadable : Submission := ⟨⟨[("details", .string "none")]⟩⟩

/-- Verdict and change agree on every submission: they fail together and alike, a submission passes
if and only if the change step gives it back as it is, and it needs the action if and only if the
change step gives back another one. For a block that is there, the walk of any matrix counts a
write exactly if the verdict on it is not to pass. -/
theorem check_agrees_with_change (a : TranscriptionAction) (s : Submission) :
    (∀ e, a.check s = .error e ↔ a.runChange s = .error e) ∧
    (∀ e, a.check s = .error e → ∃ reason, e = .invalidSubmission reason) ∧
    (a.check s = .ok .passes ↔ a.runChange s = .ok s) ∧
    (a.check s = .ok .actionNeeded ↔ ∃ after, a.runChange s = .ok after ∧ after ≠ s) ∧
    ∀ (matrix : FieldServiceMatrix) (destination : String) (block : SupplementalBlock),
      s.supplemental destination = .ok (some block) →
        (evaluateBlock s destination matrix = .ok .actionNeeded ↔
          (advanceBlock (some block) matrix).isNoop = false) := by
  refine ⟨?_, ?_, check_eq_passes_iff, ?_, ?_⟩
  · intro e
    rw [check_eq_error_iff, runChange_eq_error_iff]
  · intro e h
    exact Submission.supplemental_error (check_eq_error_iff.mp h)
  · cases hf : s.supplemental a.destination with
    | error e =>
      rw [check_eq_error_iff.mpr hf, runChange_eq_error_iff.mpr hf]
      exact ⟨nofun, by simp⟩
    | ok found =>
      rw [check, evaluateBlock_eq_actionNeeded_iff hf]
      change ¬ a.check s = .ok .passes ↔ _
      rw [check_eq_passes_iff, runChange_of_readable ⟨found, hf⟩]
      simp
  · intro matrix destination block hb
    rw [evaluateBlock_of_supplemental hb, ← Bool.not_eq_true, isNoop_advanceBlock_iff,
      Option.getD_some, ← evaluateSlots_eq_passes_iff]
    cases evaluateSlots block matrix.pairs <;> simp

/-- The submission of a user who asks the service for a transcript, and one whose
block cannot be read. -/
theorem check_agrees_with_change_request :
    (∃ e, clipAction.check clipUnreadable = .error e ∧
      clipAction.runChange clipUnreadable = .error e ∧ ∃ reason, e = .invalidSubmission reason) ∧
    (advanceBlock (some clipBlock) clipAction.matrix).isNoop = false := by
  constructor
  · obtain ⟨same, invalid, -⟩ := check_agrees_with_change clipAction clipUnreadable
    have he : clipAction.check clipUnreadable =
        .error (.invalidSubmission "'details' must be an object, got string") := rfl
    exact ⟨_, he, (same _).mp he, invalid _ he⟩
  · obtain ⟨-, -, -, -, walk⟩ := check_agrees_with_change clipAction clipRequested
    exact (walk clipAction.matrix "details" clipBlock rfl).mp rfl

/-- One run settles. Whatever pairs are walked, the advanced submission passes and
advancing it again is a no-op on the same block; and a second change run of an
action gives back what the first gave, with no request for the dispatcher. -/
theorem one_run_settles :
    (∀ (matrix : FieldServiceMatrix) (destination : String) (s : Submission)
      (found : Option SupplementalBlock),
      s.supplemental destination = .ok found →
        evaluateBlock (s.withSupplemental destination (advanceBlock found matrix).block)
          destination matrix = .ok .passes ∧
        (advanceBlock (some (advanceBlock found matrix).block) matrix).isNoop = true ∧
        (advanceBlock (some (advanceBlock found matrix).block) matrix).block =
          (advanceBlock found matrix).block) ∧
    ∀ (a : TranscriptionAction) (s after : Submission), a.runChange s = .ok after →
      a.runChange after = .ok after ∧ a.change after = .ok ⟨after, []⟩ ∧
        ∀ recorder, a.changeInto recorder after = (.ok after, recorder) := by
  constructor
  · intro matrix destination s found _
    have hs := settled_advanceBlock found matrix
    refine ⟨?_, isNoop_advanceBlock_iff.mpr hs, block_advanceBlock_eq_iff.mpr hs⟩
    exact evaluateBlock_eq_passes_iff.mpr ⟨_, Submission.supplemental_withSupplemental _ _ _, hs⟩
  · intro a s after h
    have hc := change_of_runChange h
    refine ⟨?_, hc, ?_⟩
    · rw [runChange, hc]
      rfl
    · intro recorder
      rw [changeInto, hc]
      rfl

/-- Two slots that share a key, the key that a user asked for. -/
theorem one_run_settles_shared_key :
    let shared : FieldServiceMatrix :=
      ⟨[⟨"clip", "acme", "clip_transcription_acme"⟩,
        ⟨"clip_transcription", "acme", "clip_transcription_acme"⟩]⟩
    evaluateBlock
      (clipRequested.withSupplemental "details" (advanceBlock (some clipBlock) shared).block)
      "details" shared = .ok .passes ∧
    ∃ after, clipAction.runChange clipRequested = .ok after ∧
      clipAction.change after = .ok ⟨after, []⟩ := by
  obtain ⟨blocks, actions⟩ := one_run_settles
  exact ⟨(blocks _ "details" clipRequested (some clipBlock) rfl).1, _, rfl,
    (actions clipAction clipRequested _ rfl).2.1⟩

end TranscriptionAction

end SubmissionAnnotation
