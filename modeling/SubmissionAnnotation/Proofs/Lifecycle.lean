import SubmissionAnnotation.Proofs.Records
import SubmissionAnnotation.Proofs.SlotMoves

/-!
# The lifecycle of a slot never gets stuck

A submission is good for an action if there is a block to read, or none, and every
slot of the matrix is missing, asked for, dispatched or completed with a transcript
that can be read. Change runs, texts that are handed in and wishes of users keep a
submission good, because a transcript reads back what it wrote. On a good submission
the verdict and the change step never fail, and a text is refused only if there is
no slot for it, or if a service answers what it was not asked.
-/
namespace SubmissionAnnotation

inductive GoodEntry : Option Json → Prop
  | absent : GoodEntry none
  | notRequested : GoodEntry (some FieldStatus.notRequested.toValue)
  | requestedByUser : GoodEntry (some FieldStatus.requestedByUser.toValue)
  | pending : GoodEntry (some FieldStatus.pending.toValue)
  | transcript {result : OrderedMap Json} {t : TranscriptValue}
    (readable : TranscriptValue.record.decode (.object result) = .ok t) :
    GoodEntry (some (.object result))

theorem goodEntry_encode (t : TranscriptValue) :
    GoodEntry (some (TranscriptValue.record.encode t)) :=
  .transcript (TranscriptValue.lawful_record t)

theorem SlotMove.goodEntry {σ : Session} {key : String} {step : Step} {entry next : Option Json}
    (h : SlotMove σ key step entry next) (he : GoodEntry entry) : GoodEntry next := by
  cases h with
  | keep => exact he
  | appear => exact .notRequested
  | dispatch => exact .pending
  | complete _ t => exact goodEntry_encode t

/-- A slot of which no engine was asked anything yet. -/
def IsOpen (entry : Option Json) : Prop :=
  entry = none ∨ entry = some FieldStatus.notRequested.toValue ∨
    entry = some FieldStatus.requestedByUser.toValue

theorem IsOpen.not_isDispatched {entry : Option Json} (h : IsOpen entry) :
    ¬ IsDispatched entry := by
  rintro (hp | ⟨result, hr⟩)
  · rcases h with rfl | rfl | rfl <;>
      simp [FieldStatus.toValue, FieldStatus.notRequestedText, FieldStatus.requestedByUserText,
        FieldStatus.pendingText] at hp
  · rcases h with rfl | rfl | rfl <;> cases hr

/-- What the refusal of a text calls the state of a slot. -/
def stateText : Option Json → String
  | none => "ABSENT"
  | some v => (FieldStatus.ofValue v).display

namespace TranscriptionAction

variable {a : TranscriptionAction} {s : Submission} {p : FieldServicePair} {entry : Option Json}
  {field service : String} {input : TranscriptInput} {now : Instant} {e : ActionError}

theorem nextTranscript_of_not_isDispatched (h : ¬ IsDispatched entry) (p : FieldServicePair)
    (input : TranscriptInput) (now : Instant) :
    nextTranscript p (entry.map FieldStatus.ofValue) input now =
      if p.isManual then .ok (.fresh input (engineName p.service) now)
      else .error (.invalidTransition p.key (stateText entry)) := by
  unfold nextTranscript
  split
  next result hs =>
    obtain ⟨v, rfl, hv⟩ := Option.map_eq_some_iff.mp hs
    exact absurd (Or.inr ⟨result, congrArg some (FieldStatus.eq_toValue_of_ofValue hv)⟩) h
  next hs =>
    obtain ⟨v, rfl, hv⟩ := Option.map_eq_some_iff.mp hs
    exact absurd (Or.inl (congrArg some (FieldStatus.eq_toValue_of_ofValue hv))) h
  next => cases entry <;> rfl

theorem exists_nextTranscript_of_not_isOpen (h : GoodEntry entry) (ho : ¬ IsOpen entry)
    (p : FieldServicePair) (input : TranscriptInput) (now : Instant) :
    ∃ t, nextTranscript p (entry.map FieldStatus.ofValue) input now = .ok t := by
  cases h with
  | absent => exact absurd (Or.inl rfl) ho
  | notRequested => exact absurd (Or.inr (Or.inl rfl)) ho
  | requestedByUser => exact absurd (Or.inr (Or.inr rfl)) ho
  | pending =>
    refine ⟨.fresh input (engineName p.service) now, ?_⟩
    rw [Option.map_some, FieldStatus.ofValue_toValue_pending]
    rfl
  | @transcript result t readable =>
    refine ⟨t.revise input (engineName p.service) now, ?_⟩
    simp [nextTranscript, FieldStatus.ofValue, readable]

theorem nextTranscript_eq_error_iff (h : GoodEntry entry) :
    nextTranscript p (entry.map FieldStatus.ofValue) input now = .error e ↔
      p.isManual = false ∧ IsOpen entry ∧ e = .invalidTransition p.key (stateText entry) := by
  by_cases ho : IsOpen entry
  · rw [nextTranscript_of_not_isDispatched ho.not_isDispatched]
    cases hm : p.isManual <;> simp [ho, eq_comm]
  · obtain ⟨t, ht⟩ := exists_nextTranscript_of_not_isOpen h ho p input now
    simp [ht, ho]

/-- The block at the destination can be read, and so can all of its slots that the action tracks. -/
structure Good (a : TranscriptionAction) (s : Submission) : Prop where
  readable : s.Readable a.destination
  entries : ∀ key ∈ a.matrix.keys, GoodEntry (s.slot? a.destination key)

/-- The two reasons for which a good submission may refuse a text for a field and a service. -/
inductive Refusal (a : TranscriptionAction) (s : Submission) (field service : String) :
    ActionError → Prop
  | unknown (untracked : ∀ p ∈ a.matrix.pairs, ¬ (p.field = field ∧ p.service = service)) :
    Refusal a s field service (.unknownFieldService field service)
  | unasked {p : FieldServicePair} (tracked : p ∈ a.matrix.pairs)
    (addressed : p.field = field ∧ p.service = service) (service_ne : service ≠ manualService)
    (isOpen : IsOpen (s.slot? a.destination p.key)) :
    Refusal a s field service (.invalidTransition p.key (stateText (s.slot? a.destination p.key)))

/-- All that an action does with a submission succeeds, but for texts that nothing asked for. -/
structure Workable (a : TranscriptionAction) (s : Submission) : Prop where
  check : ∃ verdict, a.check s = .ok verdict
  change : ∃ after, a.runChange s = .ok after
  record_error_iff : ∀ field service input now e,
    a.recordTranscript s field service input now = .error e ↔ a.Refusal s field service e
  manual : ∀ field ∈ a.fields.items, ∀ input now, ∃ after t,
    a.recordTranscript s field manualService input now = .ok after ∧
    after.slot? a.destination (pairKey field manualService keyJoiner) =
      some (TranscriptValue.record.encode t) ∧
    t.value = input.value ∧ t.languageCode = some input.languageCode ∧
    t.engine = some (engineName manualService)

theorem isManual_eq_false_iff : p.isManual = false ↔ p.service ≠ manualService := by
  simp [FieldServicePair.isManual]

theorem Good.record_error_iff (h : a.Good s) :
    a.recordTranscript s field service input now = .error e ↔ a.Refusal s field service e := by
  have hgood : ∀ p ∈ a.matrix.pairs, GoodEntry (s.slot? a.destination p.key) :=
    fun p hp => h.entries p.key (FieldServiceMatrix.key_mem_keys hp)
  constructor
  · intro he
    rcases a.recordTranscript_cases s field service input now with
      ⟨hp, hr⟩ | ⟨e', hs, hr⟩ | ⟨p, e', hp, hn, hr⟩ | ⟨p, t, -, -, -, hr⟩
    · cases he.symm.trans hr
      exact .unknown (FieldServiceMatrix.find?_eq_none_iff.mp hp)
    · obtain ⟨found, hf⟩ := h.readable
      cases hf.symm.trans hs
    · cases he.symm.trans hr
      obtain ⟨hm, hf, rfl⟩ := FieldServiceMatrix.of_find?_eq_some hp
      obtain ⟨hmanual, hopen, rfl⟩ := (nextTranscript_eq_error_iff (hgood p hm)).mp hn
      exact .unasked hm ⟨hf, rfl⟩ (isManual_eq_false_iff.mp hmanual) hopen
    · cases he.symm.trans hr
  · intro he
    cases he with
    | unknown untracked =>
      exact recordTranscript_of_find?_eq_none (FieldServiceMatrix.find?_eq_none_iff.mpr untracked)
    | @unasked p hm addressed service_ne hopen =>
      obtain ⟨rfl, rfl⟩ := addressed
      have hn : a.answer s p input now =
          .error (.invalidTransition p.key (stateText (s.slot? a.destination p.key))) :=
        (nextTranscript_eq_error_iff (hgood p hm)).mpr
          ⟨isManual_eq_false_iff.mpr service_ne, hopen, rfl⟩
      exact recordTranscript_of_answer (find?_of_mem_matrix hm) h.readable hn

theorem Good.workable (h : a.Good s) : a.Workable s where
  check := by
    obtain ⟨found, hf⟩ := h.readable
    cases hc : a.check s with
    | error e => cases hf.symm.trans (check_eq_error_iff.mp hc)
    | ok verdict => exact ⟨verdict, rfl⟩
  change := ⟨_, runChange_of_readable h.readable⟩
  record_error_iff _ _ _ _ _ := h.record_error_iff
  manual field hf input now := by
    have hp := find?_manual hf
    cases hr : a.recordTranscript s field manualService input now with
    | ok after =>
      obtain ⟨p, t, hp', -, ha, rfl⟩ := recordTranscript_eq_ok_iff.mp hr
      obtain rfl := Option.some.inj (hp.symm.trans hp')
      exact ⟨_, t, rfl, slot?_answered a s _ t, text_of_answer ha⟩
    | error e =>
      obtain ⟨hm, hfield, hservice⟩ := FieldServiceMatrix.of_find?_eq_some hp
      cases h.record_error_iff.mp hr with
      | unknown untracked => exact absurd ⟨hfield, hservice⟩ (untracked _ hm)
      | unasked _ _ service_ne => exact absurd rfl service_ne

end TranscriptionAction

namespace Session

open TranscriptionAction (clipAction)

variable {σ : Session} {steps : List Step}

theorem goodEntry_step {step : Step} (fixed : step.isLoad = false) {key : String}
    (h : GoodEntry (σ.slot? key)) : GoodEntry ((σ.step step).slot? key) := by
  cases step with
  | load record => cases fixed
  | change => exact (slotMove_change σ key).goodEntry h
  | record field service input now =>
    exact (slotMove_record σ key field service input now).goodEntry h
  | request asked =>
    rcases slot?_step_request σ asked key with hs | hs
    · rwa [hs]
    · rw [hs]
      exact .requestedByUser

theorem good_step {step : Step} (fixed : step.isLoad = false) (h : σ.action.Good σ.submission) :
    (σ.step step).action.Good (σ.step step).submission := by
  rw [action_step fixed]
  refine ⟨readable_step h.readable step, fun key hk => ?_⟩
  have hs : (σ.step step).slot? key = (σ.step step).submission.slot? σ.action.destination key := by
    rw [slot?, action_step fixed]
  exact hs ▸ goodEntry_step fixed (h.entries key hk)

/-- From a good submission, all that change runs, texts handed in and wishes of
users lead to is good again, so that the action can go on with it. -/
theorem lifecycle_never_stuck (σ : Session) (good : σ.action.Good σ.submission) (steps : List Step)
    (fixed : ∀ step ∈ steps, step.isLoad = false) :
    σ.action.Good (σ.run steps).submission ∧ σ.action.Workable (σ.run steps).submission := by
  have h : (σ.run steps).action.Good (σ.run steps).submission :=
    run_induction (P := fun τ => τ.action.Good τ.submission)
      (fun _ _ hs ht => good_step hs ht) fixed good
  rw [action_run fixed] at h
  exact ⟨h, h.workable⟩

/-- A text was handed in by hand before the service is asked, answers, and is asked again. -/
theorem lifecycle_never_stuck_answered :
    let typed : TranscriptValue := .fresh ⟨"hello", "en"⟩ "manual" ⟨0, 0⟩
    let block : SupplementalBlock :=
      ⟨[("clip_transcription_manual", TranscriptValue.record.encode typed),
        ("clip_transcription_acme", FieldStatus.requestedByUser.toValue)]⟩
    let s : Submission := ⟨⟨[("clip", .string "clip.mp3"), ("details", .object block)]⟩⟩
    let σ : Session := ⟨clipAction, s, .empty⟩
    let steps : List Step :=
      [.change, .record "clip" "acme" ⟨"hallo", "de"⟩ ⟨1, 0⟩,
        .request "clip_transcription_acme", .change]
    σ.action.Good σ.submission ∧ (∀ step ∈ steps, step.isLoad = false) ∧
      σ.action.Workable (σ.run steps).submission := by
  intro typed block s σ steps
  have good : σ.action.Good σ.submission := by
    refine ⟨⟨some block, rfl⟩, fun key hk => ?_⟩
    have hk : key = "clip_transcription_manual" ∨ key = "clip_transcription_acme" := by
      simpa using (show key ∈ ["clip_transcription_manual", "clip_transcription_acme"] from hk)
    rcases hk with rfl | rfl
    · exact goodEntry_encode typed
    · exact .requestedByUser
  have fixed : ∀ step ∈ steps, step.isLoad = false := by decide
  exact ⟨good, fixed, (lifecycle_never_stuck σ good steps fixed).2⟩

end Session

end SubmissionAnnotation
