import SubmissionAnnotation.Json.SameData
import SubmissionAnnotation.Proofs.Dispatch
import SubmissionAnnotation.Proofs.Session

/-!
# Change runs and texts in any order

A text may come back while the change step runs over the same submission. Advancing a
slot neither closes it for a text that it was open for nor touches a transcript, and a
transcript is written into one slot only; so a change run and a text, or the texts of two
slots, can be taken in either order, and in the end the submission holds the same data.
Where nothing is left to advance there is nothing to race for: texts replace settled
entries by settled ones, and no change run writes or asks for anything any more.
-/
namespace SubmissionAnnotation

theorem advancedEntry_encode (t : TranscriptValue) :
    advancedEntry (some (TranscriptValue.record.encode t)) = TranscriptValue.record.encode t :=
  rfl

/-- A write that advancing would leave alone can be made before or after it. -/
theorem get?_advanceBlock_insert (block : SupplementalBlock) (matrix : FieldServiceMatrix)
    (key : String) {v : Json} (h : advancedEntry (some v) = v) (other : String) :
    ((advanceBlock (some block) matrix).block.insert key v).get? other =
      (advanceBlock (some (block.insert key v)) matrix).block.get? other := by
  rw [OrderedMap.get?_insert, get?_advanceBlock, get?_advanceBlock, Option.getD_some,
    Option.getD_some, OrderedMap.get?_insert]
  by_cases hk : other = key
  · simp [hk, h]
  · simp [hk]

theorem OrderedMap.get?_insert_comm {m : OrderedMap Json} {key other : String} (hne : key ≠ other)
    (v w : Json) (k : String) :
    ((m.insert key v).insert other w).get? k = ((m.insert other w).insert key v).get? k := by
  rw [get?_insert, get?_insert, get?_insert, get?_insert]
  by_cases hk : k = key
  · simp [hk, hne]
  · simp [hk]

theorem Submission.sameData_withSupplemental (s : Submission) (destination : String)
    {block other : SupplementalBlock} (h : ∀ key, block.get? key = other.get? key) :
    (s.withSupplemental destination block).toJson.SameData
      (s.withSupplemental destination other).toJson :=
  .insert s.members destination (.of_get?_eq h)

namespace TranscriptionAction

variable {a : TranscriptionAction} {s after done : Submission} {p q : FieldServicePair}
  {field service : String} {input : TranscriptInput} {now : Instant} {t : TranscriptValue}
  {entry : Option Json}

theorem nextTranscript_of_isManual (manual : p.isManual = true)
    (h : ∀ result, entry ≠ some (.object result)) (input : TranscriptInput) (now : Instant) :
    nextTranscript p (entry.map FieldStatus.ofValue) input now =
      .ok (.fresh input (engineName p.service) now) := by
  unfold nextTranscript
  split
  next result hs =>
    obtain ⟨v, rfl, hv⟩ := Option.map_eq_some_iff.mp hs
    exact absurd (congrArg some (FieldStatus.eq_toValue_of_ofValue hv)) (h result)
  next => rfl
  next => rw [if_pos manual]

/-- Advancing a slot does not change what a text that is taken there becomes. -/
theorem nextTranscript_advancedEntry
    (h : nextTranscript p (entry.map FieldStatus.ofValue) input now = .ok t) :
    nextTranscript p ((some (advancedEntry entry)).map FieldStatus.ofValue) input now = .ok t := by
  -- a result is not advanced, and neither is a slot that waits for an answer; a slot for
  -- texts by hand may be advanced, but never to a result
  rcases nextTranscript_eq_ok h with ⟨result, old, rfl, -, -⟩ | ⟨hno, manual | rfl, rfl⟩
  · exact h
  · apply nextTranscript_of_isManual manual
    intro result he
    rcases advancedEntry_cases entry with ⟨-, hn⟩ | ⟨-, hn⟩ | ho
    · rw [hn] at he
      cases he
    · rw [hn] at he
      cases he
    · exact hno result (ho.trans he)
  · have hpending : advancedEntry (some FieldStatus.pending.toValue) =
        FieldStatus.pending.toValue := by simp [advancedEntry, FieldStatus.needsAction]
    rwa [hpending]

theorem answer_withSupplemental_advanced (tracked : p.key ∈ a.matrix.keys)
    (h : a.answer s p input now = .ok t) :
    a.answer (s.withSupplemental a.destination (a.advanced (s.blockAt a.destination)).block) p
      input now = .ok t := by
  unfold answer advanced
  rw [Submission.slot?_withSupplemental, get?_advanceBlock, if_pos tracked]
  exact nextTranscript_advancedEntry h

theorem answer_answered_of_ne (hne : p.key ≠ q.key) (t : TranscriptValue) (input : TranscriptInput)
    (now : Instant) :
    a.answer (s.withSupplemental a.destination (a.answeredBlock s q t)) p input now =
      a.answer s p input now := by
  unfold answer answeredBlock
  rw [Submission.slot?_withSupplemental, OrderedMap.get?_insert_of_ne hne]
  rfl

/-- A text that is taken is also taken after a change run, with the same outcome as if it
had come before the run. -/
theorem recordTranscript_runChange_comm
    (h : a.recordTranscript s field service input now = .ok done) :
    ∃ after later final, a.runChange s = .ok after ∧
      a.recordTranscript after field service input now = .ok later ∧
      a.runChange done = .ok final ∧ later.toJson.SameData final.toJson := by
  obtain ⟨p, t, hp, hr, ha, rfl⟩ := recordTranscript_eq_ok_iff.mp h
  obtain ⟨hm, -, -⟩ := FieldServiceMatrix.of_find?_eq_some hp
  have hanswer := answer_withSupplemental_advanced (FieldServiceMatrix.key_mem_keys hm) ha
  refine ⟨_, _, _, runChange_of_readable hr, recordTranscript_withSupplemental hp hanswer,
    runChange_withSupplemental a s (a.answeredBlock s p t), ?_⟩
  apply Submission.sameData_withSupplemental
  exact get?_advanceBlock_insert _ _ _ (advancedEntry_encode t)

theorem recordTranscript_answered (hp : a.matrix.find? field service = some p)
    (ha : a.answer s p input now = .ok t) (hne : p.key ≠ q.key) (u : TranscriptValue) :
    a.recordTranscript (s.withSupplemental a.destination (a.answeredBlock s q u)) field service
        input now =
      .ok (s.withSupplemental a.destination
        ((a.answeredBlock s q u).insert p.key (TranscriptValue.record.encode t))) := by
  apply recordTranscript_withSupplemental hp
  rw [answer_answered_of_ne hne, ha]

/-- Change runs and completions commute. If a text for a slot is taken, a change run is
possible as well, the text is also taken after the run, and both orders leave the same
data. If texts for two different slots are taken, each of them is also taken after the
other, and both orders leave the same data. -/
theorem change_and_completion_commute (loaded : a.IsLoaded) (s : Submission) :
    (∀ p ∈ a.matrix.pairs, ∀ input now done,
      a.recordTranscript s p.field p.service input now = .ok done →
        ∃ after later final, a.runChange s = .ok after ∧
          a.recordTranscript after p.field p.service input now = .ok later ∧
          a.runChange done = .ok final ∧ later.toJson.SameData final.toJson) ∧
    ∀ p ∈ a.matrix.pairs, ∀ q ∈ a.matrix.pairs, p ≠ q → ∀ input now done input' now' done',
      a.recordTranscript s p.field p.service input now = .ok done →
      a.recordTranscript s q.field q.service input' now' = .ok done' →
        ∃ final final', a.recordTranscript done q.field q.service input' now' = .ok final ∧
          a.recordTranscript done' p.field p.service input now = .ok final' ∧
          final.toJson.SameData final'.toJson := by
  constructor
  · intro p _ input now done h
    exact recordTranscript_runChange_comm h
  · intro p hp q hq hne input now done input' now' done' h h'
    have hkey : p.key ≠ q.key := fun hk => hne (loaded.eq_of_key_eq hp hq hk)
    obtain ⟨p', t, hfind, hr, ha, rfl⟩ := recordTranscript_eq_ok_iff.mp h
    obtain ⟨q', t', hfind', -, ha', rfl⟩ := recordTranscript_eq_ok_iff.mp h'
    obtain rfl : p' = p := Option.some.inj (hfind.symm.trans (find?_of_mem_matrix hp))
    obtain rfl : q' = q := Option.some.inj (hfind'.symm.trans (find?_of_mem_matrix hq))
    refine ⟨_, _, recordTranscript_answered hfind' ha' hkey.symm t,
      recordTranscript_answered hfind ha hkey t', ?_⟩
    apply Submission.sameData_withSupplemental
    exact OrderedMap.get?_insert_comm hkey _ _

/-- The answer of the service, which was asked, and a text by hand, for which
there is no slot yet. -/
theorem change_and_completion_commute_two_texts :
    let block : SupplementalBlock :=
      ⟨[("clip_transcription_acme", FieldStatus.pending.toValue)]⟩
    let s : Submission := ⟨⟨[("clip", .string "clip.mp3"), ("details", .object block)]⟩⟩
    let heard := fun s => clipAction.recordTranscript s "clip" "acme" ⟨"hallo", "de"⟩ ⟨1, 0⟩
    let typed := fun s => clipAction.recordTranscript s "clip" "manual" ⟨"hello", "en"⟩ ⟨0, 0⟩
    clipAction.IsLoaded ∧ ∃ done done', typed s = .ok done ∧ heard s = .ok done' ∧
      (∃ after later final, clipAction.runChange s = .ok after ∧ typed after = .ok later ∧
        clipAction.runChange done = .ok final ∧ later.toJson.SameData final.toJson) ∧
      ∃ final final', heard done = .ok final ∧ typed done' = .ok final' ∧
        final.toJson.SameData final'.toJson := by
  intro block s heard typed
  obtain ⟨change, texts⟩ := change_and_completion_commute isLoaded_clipAction s
  let byHand : FieldServicePair := .ofNames "clip" "manual" keyJoiner
  let byAcme : FieldServicePair := .ofNames "clip" "acme" keyJoiner
  have hbyHand : byHand ∈ clipAction.matrix.pairs := by decide
  have hbyAcme : byAcme ∈ clipAction.matrix.pairs := by decide
  refine ⟨isLoaded_clipAction, _, _, rfl, rfl, change byHand hbyHand _ _ _ rfl, ?_⟩
  exact texts byHand hbyHand byAcme hbyAcme (by decide) _ _ _ _ _ _ rfl rfl

/-! ## Settled submissions -/

theorem changeInto_of_check (h : a.check s = .ok .passes) (recorder : Recorder) :
    a.changeInto recorder s = (.ok s, recorder) := by
  rw [changeInto, change_of_runChange (check_eq_passes_iff.mp h)]
  rfl

theorem check_of_recordTranscript (h : a.check s = .ok .passes)
    (hr : a.recordTranscript s field service input now = .ok after) :
    a.check after = .ok .passes := by
  obtain ⟨block, hb, settled⟩ := evaluateBlock_eq_passes_iff.mp h
  obtain ⟨p, t, -, -, -, rfl⟩ := recordTranscript_eq_ok_iff.mp hr
  have hblock : s.blockAt a.destination = block := Submission.blockAt_of_supplemental hb
  refine evaluateBlock_eq_passes_iff.mpr
    ⟨_, Submission.supplemental_withSupplemental s a.destination _, ?_⟩
  intro q hq
  unfold Settled answeredBlock
  rw [OrderedMap.get?_insert, hblock]
  by_cases hk : q.key = p.key
  · exact ⟨_, if_pos hk, rfl⟩
  · rw [if_neg hk]
    exact settled q hq

end TranscriptionAction

namespace Session

open TranscriptionAction (clipAction)

variable {σ : Session} {steps : List Step}

theorem step_change_of_check (h : σ.action.check σ.submission = .ok .passes) :
    σ.step .change = σ := by
  simp [step, TranscriptionAction.changeInto_of_check h, orKeep]

theorem recorder_step_record (σ : Session) (field service : String) (input : TranscriptInput)
    (now : Instant) : (σ.step (.record field service input now)).recorder = σ.recorder := rfl

/-- Neither a change run nor a text unsettles a submission, and neither asks an engine for
anything on a settled one. -/
theorem settled_step {step : Step} (own : step.isLoad = false ∧ step.isRequest = false)
    (h : σ.action.check σ.submission = .ok .passes) :
    σ.action.check (σ.step step).submission = .ok .passes ∧
      (σ.step step).recorder = σ.recorder := by
  cases step with
  | load record => cases own.1
  | change =>
    rw [step_change_of_check h]
    exact ⟨h, rfl⟩
  | record field service input now =>
    refine ⟨?_, recorder_step_record σ field service input now⟩
    rcases submission_step_record σ field service input now with hs | ⟨-, p, t, -, -, hr, -⟩
    · rwa [hs]
    · exact TranscriptionAction.check_of_recordTranscript h hr
  | request key => cases own.2

theorem settled_run (own : ∀ step ∈ steps, step.isLoad = false ∧ step.isRequest = false)
    (h : σ.action.check σ.submission = .ok .passes) :
    σ.action.check (σ.run steps).submission = .ok .passes ∧
      (σ.run steps).recorder = σ.recorder := by
  have hrun : (σ.run steps).action = σ.action ∧
      σ.action.check (σ.run steps).submission = .ok .passes ∧
      (σ.run steps).recorder = σ.recorder := by
    refine run_induction (P := fun τ => τ.action = σ.action ∧
      σ.action.check τ.submission = .ok .passes ∧ τ.recorder = σ.recorder) ?_ own ⟨rfl, h, rfl⟩
    rintro τ step hown ⟨haction, hcheck, hrecorder⟩
    rw [← haction] at hcheck ⊢
    obtain ⟨hcheck, hkeep⟩ := settled_step hown hcheck
    exact ⟨action_step hown.1, hcheck, hkeep.trans hrecorder⟩
  exact hrun.2

/-- A settled submission stays settled. Along every run of change runs and texts that
starts from a submission that passes, all that is reached passes, a change run gives it
back as it is, and the recorder gets no request. And no text that is taken, whatever its
slot, turns a submission that passes into one that needs the action. -/
theorem settled_stays_settled :
    (∀ (σ : Session) (steps : List Step), σ.action.check σ.submission = .ok .passes →
      (∀ step ∈ steps, step.isLoad = false ∧ step.isRequest = false) →
        let τ := σ.run steps
        σ.action.check τ.submission = .ok .passes ∧
        σ.action.runChange τ.submission = .ok τ.submission ∧
        (∀ recorder, σ.action.changeInto recorder τ.submission = (.ok τ.submission, recorder)) ∧
        τ.recorder = σ.recorder) ∧
    ∀ (a : TranscriptionAction) (s after : Submission) (field service : String)
      (input : TranscriptInput) (now : Instant), a.check s = .ok .passes →
        a.recordTranscript s field service input now = .ok after →
          a.check after = .ok .passes := by
  constructor
  · intro σ steps h own τ
    obtain ⟨hcheck, hrecorder⟩ := settled_run own h
    exact ⟨hcheck, TranscriptionAction.check_eq_passes_iff.mp hcheck,
      TranscriptionAction.changeInto_of_check hcheck, hrecorder⟩
  · intro a s after field service input now h hr
    exact TranscriptionAction.check_of_recordTranscript h hr

/-- A submission for which an answer is due: the answer comes, twice, and one text comes
for a service that there is not. -/
theorem settled_stays_settled_answered :
    let block : SupplementalBlock :=
      ⟨[("clip_transcription_manual", FieldStatus.notRequested.toValue),
        ("clip_transcription_acme", FieldStatus.pending.toValue)]⟩
    let s : Submission := ⟨⟨[("clip", .string "clip.mp3"), ("details", .object block)]⟩⟩
    let σ : Session := ⟨clipAction, s, .empty⟩
    let steps : List Step :=
      [.record "clip" "acme" ⟨"hallo", "de"⟩ ⟨0, 0⟩, .change,
        .record "clip" "other" ⟨"hola", "es"⟩ ⟨1, 0⟩, .record "clip" "acme" ⟨"hello", "en"⟩ ⟨2, 0⟩]
    σ.action.check σ.submission = .ok .passes ∧
    (∀ step ∈ steps, step.isLoad = false ∧ step.isRequest = false) ∧
    σ.action.check (σ.run steps).submission = .ok .passes ∧ (σ.run steps).recorder = .empty ∧
    ∃ after, clipAction.recordTranscript s "clip" "manual" ⟨"hello", "en"⟩ ⟨3, 0⟩ = .ok after ∧
      clipAction.check after = .ok .passes := by
  intro block s σ steps
  have passes : σ.action.check σ.submission = .ok .passes := rfl
  have own : ∀ step ∈ steps, step.isLoad = false ∧ step.isRequest = false := by decide
  obtain ⟨runs, texts⟩ := settled_stays_settled
  obtain ⟨hcheck, -, -, hrecorder⟩ := runs σ steps passes own
  obtain ⟨after, hr⟩ : ∃ after,
      clipAction.recordTranscript s "clip" "manual" ⟨"hello", "en"⟩ ⟨3, 0⟩ = .ok after := ⟨_, rfl⟩
  exact ⟨passes, own, hcheck, hrecorder, after, hr, texts _ s after _ _ _ _ passes hr⟩

end Session

end SubmissionAnnotation
