import SubmissionAnnotation.Proofs.Dispatch
import SubmissionAnnotation.Proofs.Lifecycle

/-!
# Which texts are taken

A text that is handed in is looked at in a fixed order: whether the action has a slot for
it, whether the block and a result in the slot can be read, and whether the slot waits for
it. Each of the outcomes has conditions of its own, on what is loaded and on what the
submission holds, and exactly one of them comes about. A text that is taken is written
into its slot, and since slots of a loaded action have keys of their own, into no other.
-/
namespace SubmissionAnnotation

/-- A slot whose object is no transcript. -/
def IsSpoiled (entry : Option Json) : Prop :=
  ∃ result e, entry = some (.object result) ∧
    TranscriptValue.record.decode (.object result) = .error e

theorem IsSpoiled.isDispatched {entry : Option Json} (h : IsSpoiled entry) :
    IsDispatched entry := by
  obtain ⟨result, _, hresult, _⟩ := h
  exact Or.inr ⟨result, hresult⟩

namespace TranscriptionAction

variable {a : TranscriptionAction} {s : Submission} {p : FieldServicePair} {entry : Option Json}
  {field service : String} {input : TranscriptInput} {now : Instant} {e : ActionError}

def Offers (a : TranscriptionAction) (field service : String) : Prop :=
  field ∈ a.fields.items ∧ (service = manualService ∨ service ∈ a.services.items)

def slotOf (field service : String) : FieldServicePair :=
  .ofNames field service keyJoiner

theorem slotOf_mem_matrix_iff : slotOf field service ∈ a.matrix.pairs ↔ a.Offers field service := by
  rw [matrix, FieldServiceMatrix.mem_generate_iff, FieldServiceMatrix.mem_servicesOf, Offers]
  simp [slotOf, FieldServicePair.ofNames]

theorem find?_of_offers (h : a.Offers field service) :
    a.matrix.find? field service = some (slotOf field service) :=
  find?_of_mem_matrix (slotOf_mem_matrix_iff.mpr h)

theorem find?_of_not_offers (h : ¬ a.Offers field service) :
    a.matrix.find? field service = none := by
  by_contra hfound
  have found := Option.ne_none_iff_exists'.mp hfound
  exact h (FieldServiceMatrix.exists_find?_generate_iff.mp found)

theorem nextTranscript_of_isSpoiled (h : IsSpoiled entry) (p : FieldServicePair)
    (input : TranscriptInput) (now : Instant) :
    ∃ reason, nextTranscript p (entry.map FieldStatus.ofValue) input now =
      .error (.invalidSubmission reason) := by
  obtain ⟨result, e, rfl, he⟩ := h
  exact ⟨_, by rw [Option.map_some, FieldStatus.ofValue, nextTranscript, he]⟩

theorem exists_nextTranscript_of_isDispatched (dispatched : IsDispatched entry)
    (h : ¬ IsSpoiled entry) (p : FieldServicePair) (input : TranscriptInput) (now : Instant) :
    ∃ t, nextTranscript p (entry.map FieldStatus.ofValue) input now = .ok t := by
  rcases dispatched with rfl | ⟨result, rfl⟩
  · refine ⟨.fresh input (engineName p.service) now, ?_⟩
    rw [Option.map_some, FieldStatus.ofValue_toValue_pending]
    rfl
  · cases hd : TranscriptValue.record.decode (.object result) with
    | error e => exact absurd ⟨result, e, rfl, hd⟩ h
    | ok old => exact ⟨_, nextTranscript_of_object hd p input now⟩

theorem nextTranscript_cases (p : FieldServicePair) (entry : Option Json) (input : TranscriptInput)
    (now : Instant) :
    let next := nextTranscript p (entry.map FieldStatus.ofValue) input now
    IsSpoiled entry ∧ (∃ reason, next = .error (.invalidSubmission reason)) ∨
    ¬ IsSpoiled entry ∧ (p.service ≠ manualService ∧ ¬ IsDispatched entry) ∧
      next = .error (.invalidTransition p.key (stateText entry)) ∨
    ¬ IsSpoiled entry ∧ (p.service = manualService ∨ IsDispatched entry) ∧ ∃ t, next = .ok t := by
  intro next
  by_cases spoiled : IsSpoiled entry
  · exact Or.inl ⟨spoiled, nextTranscript_of_isSpoiled spoiled p input now⟩
  · by_cases dispatched : IsDispatched entry
    · exact Or.inr (Or.inr ⟨spoiled, Or.inr dispatched,
        exists_nextTranscript_of_isDispatched dispatched spoiled p input now⟩)
    · have hnext := nextTranscript_of_not_isDispatched dispatched p input now
      cases hm : p.isManual with
      | true =>
        rw [hm, if_pos rfl] at hnext
        exact Or.inr (Or.inr ⟨spoiled, Or.inl (of_decide_eq_true hm), _, hnext⟩)
      | false =>
        rw [hm, if_neg Bool.false_ne_true] at hnext
        exact Or.inr (Or.inl ⟨spoiled, ⟨isManual_eq_false_iff.mp hm, dispatched⟩, hnext⟩)

/-- The four outcomes of handing in a text, each with the conditions for it. -/
inductive HandedIn (a : TranscriptionAction) (s : Submission) (field service : String) :
    Except ActionError Submission → Prop
  | unknown (unoffered : ¬ a.Offers field service) :
    HandedIn a s field service (.error (.unknownFieldService field service))
  | unreadable (offered : a.Offers field service) (reason : String)
    (broken : ¬ s.Readable a.destination ∨
      IsSpoiled (s.slot? a.destination (slotOf field service).key)) :
    HandedIn a s field service (.error (.invalidSubmission reason))
  | unasked (offered : a.Offers field service) (readable : s.Readable a.destination)
    (sound : ¬ IsSpoiled (s.slot? a.destination (slotOf field service).key))
    (undue : service ≠ manualService ∧
      ¬ IsDispatched (s.slot? a.destination (slotOf field service).key)) :
    HandedIn a s field service (.error (.invalidTransition (slotOf field service).key
      (stateText (s.slot? a.destination (slotOf field service).key))))
  | taken (offered : a.Offers field service) (readable : s.Readable a.destination)
    (sound : ¬ IsSpoiled (s.slot? a.destination (slotOf field service).key))
    (due : service = manualService ∨
      IsDispatched (s.slot? a.destination (slotOf field service).key)) (t : TranscriptValue) :
    HandedIn a s field service
      (.ok (s.withSupplemental a.destination (a.answeredBlock s (slotOf field service) t)))

theorem handedIn_recordTranscript (a : TranscriptionAction) (s : Submission)
    (field service : String) (input : TranscriptInput) (now : Instant) :
    HandedIn a s field service (a.recordTranscript s field service input now) := by
  by_cases offered : a.Offers field service
  · have hp := find?_of_offers offered
    rcases s.readable_or_error a.destination with readable | ⟨e, he⟩
    · have hanswer := nextTranscript_cases (slotOf field service)
        (s.slot? a.destination (slotOf field service).key) input now
      rcases hanswer with ⟨spoiled, reason, hn⟩ | ⟨sound, undue, hn⟩ | ⟨sound, due, t, hn⟩
      · rw [recordTranscript_of_answer hp readable hn]
        exact .unreadable offered reason (Or.inr spoiled)
      · rw [recordTranscript_of_answer hp readable hn]
        exact .unasked offered readable sound undue
      · rw [recordTranscript_of_answer hp readable hn]
        exact .taken offered readable sound due t
    · obtain ⟨reason, rfl⟩ := Submission.supplemental_error he
      rw [recordTranscript_of_supplemental_error hp he]
      exact .unreadable offered reason (Or.inl (Submission.not_readable_of_error he))
  · rw [recordTranscript_of_find?_eq_none (find?_of_not_offers offered)]
    exact .unknown offered

namespace HandedIn

variable {outcome : Except ActionError Submission}

theorem unknown_iff (h : HandedIn a s field service outcome) :
    outcome = .error (.unknownFieldService field service) ↔ ¬ a.Offers field service := by
  cases h with
  | unknown unoffered => simp [unoffered]
  | unreadable offered => simp [offered]
  | unasked offered => simp [offered]
  | taken offered => simp [offered]

theorem unreadable_iff (h : HandedIn a s field service outcome) :
    (∃ reason, outcome = .error (.invalidSubmission reason)) ↔
      a.Offers field service ∧ (¬ s.Readable a.destination ∨
        IsSpoiled (s.slot? a.destination (slotOf field service).key)) := by
  cases h with
  | unknown unoffered => simp [unoffered]
  | unreadable offered _ broken => simp [offered, broken]
  | unasked offered readable sound => simp [readable, sound]
  | taken offered readable sound => simp [readable, sound]

theorem unasked_iff (h : HandedIn a s field service outcome) :
    outcome = .error (.invalidTransition (slotOf field service).key
        (stateText (s.slot? a.destination (slotOf field service).key))) ↔
      a.Offers field service ∧ s.Readable a.destination ∧
        ¬ IsSpoiled (s.slot? a.destination (slotOf field service).key) ∧
        service ≠ manualService ∧
        ¬ IsDispatched (s.slot? a.destination (slotOf field service).key) := by
  cases h with
  | unknown unoffered => simp [unoffered]
  | unreadable _ _ broken =>
    rcases broken with unreadable | spoiled
    · simp [unreadable]
    · simp [spoiled]
  | unasked offered readable sound undue => simp [offered, readable, sound, undue]
  | taken _ _ _ due =>
    rcases due with manual | dispatched
    · simp [manual]
    · simp [dispatched]

theorem taken_iff (h : HandedIn a s field service outcome) :
    (∃ after, outcome = .ok after) ↔
      a.Offers field service ∧ s.Readable a.destination ∧
        ¬ IsSpoiled (s.slot? a.destination (slotOf field service).key) ∧
        (service = manualService ∨
          IsDispatched (s.slot? a.destination (slotOf field service).key)) := by
  cases h with
  | unknown unoffered => simp [unoffered]
  | unreadable _ _ broken =>
    rcases broken with unreadable | spoiled
    · simp [unreadable]
    · simp [spoiled]
  | unasked _ _ _ undue => simp [undue]
  | taken offered readable sound due => simp [offered, readable, sound, due]

theorem slotWritten {after : Submission} (h : HandedIn a s field service (.ok after)) :
    ∃ t, Submission.SlotWritten a.destination (slotOf field service).key
      (TranscriptValue.record.encode t) s after := by
  cases h with
  | taken _ _ _ _ t => exact ⟨t, Submission.slotWritten_withSupplemental _ _ _ _⟩

end HandedIn

/-- Handing in a text follows its rules, in their order. It fails for want of a slot exactly
if the action has none for the field and the service; else for what the submission holds
exactly if there is something else in the place of the block, or a broken transcript in the
slot; else for the state of the slot, which the refusal names, exactly if a service was
neither asked nor has answered before; and otherwise it succeeds. Then one slot of the block
was written: no other entry has changed, least of all another slot of the action, and no
key has moved. -/
theorem hand_in_rules_exact (loaded : a.IsLoaded) (s : Submission) (field service : String)
    (input : TranscriptInput) (now : Instant) :
    let outcome := a.recordTranscript s field service input now
    let key := pairKey field service keyJoiner
    let entry := s.slot? a.destination key
    let readable := s.get? a.destination = none ∨ s.get? a.destination = some .null ∨
      ∃ block, s.get? a.destination = some (.object block)
    (outcome = .error (.unknownFieldService field service) ↔ ¬ a.Offers field service) ∧
    ((∃ reason, outcome = .error (.invalidSubmission reason)) ↔
      a.Offers field service ∧ (¬ readable ∨ IsSpoiled entry)) ∧
    (outcome = .error (.invalidTransition key (stateText entry)) ↔
      a.Offers field service ∧ readable ∧ ¬ IsSpoiled entry ∧
        service ≠ manualService ∧ ¬ IsDispatched entry) ∧
    ((∃ after, outcome = .ok after) ↔
      a.Offers field service ∧ readable ∧ ¬ IsSpoiled entry ∧
        (service = manualService ∨ IsDispatched entry)) ∧
    ∀ after, outcome = .ok after →
      (∃ t, Submission.SlotWritten a.destination key (TranscriptValue.record.encode t) s after) ∧
      ∀ q ∈ a.matrix.pairs, ¬ (q.field = field ∧ q.service = service) →
        after.slot? a.destination q.key = s.slot? a.destination q.key := by
  intro outcome key entry readable
  have handedIn : HandedIn a s field service outcome :=
    handedIn_recordTranscript a s field service input now
  have hreadable : s.Readable a.destination ↔ readable := Submission.readable_iff
  refine ⟨handedIn.unknown_iff, ?_, ?_, ?_, ?_⟩
  · rw [← hreadable]
    exact handedIn.unreadable_iff
  · rw [← hreadable]
    exact handedIn.unasked_iff
  · rw [← hreadable]
    exact handedIn.taken_iff
  · intro after hafter
    obtain ⟨offered, -⟩ := handedIn.taken_iff.mp ⟨after, hafter⟩
    rw [hafter] at handedIn
    obtain ⟨t, written⟩ := handedIn.slotWritten
    refine ⟨⟨t, written⟩, fun q hq other => written.slot?_of_ne fun hkey => other ?_⟩
    obtain rfl := loaded.eq_of_key_eq hq (slotOf_mem_matrix_iff.mpr offered) hkey
    exact ⟨rfl, rfl⟩

/-- A service that there is not, a block that is none, a service that was not asked yet,
and a text by hand. -/
theorem hand_in_rules_exact_each_outcome :
    let asked := "clip_transcription_acme"
    let hand := fun s service => clipAction.recordTranscript s "clip" service ⟨"hello", "en"⟩ ⟨0, 0⟩
    clipAction.IsLoaded ∧
    hand clipUnreadable "other" = .error (.unknownFieldService "clip" "other") ∧
    (∃ reason, hand clipUnreadable "manual" = .error (.invalidSubmission reason)) ∧
    hand clipRequested "acme" = .error (.invalidTransition asked "REQUESTED_BY_USER") ∧
    ∃ after, hand clipRequested "manual" = .ok after ∧
      after.slot? "details" asked = some FieldStatus.requestedByUser.toValue := by
  intro asked hand
  have byHand : clipAction.Offers "clip" "manual" := ⟨by decide, Or.inl rfl⟩
  have byAcme : clipAction.Offers "clip" "acme" := ⟨by decide, Or.inr (by decide)⟩
  have noOther : ¬ clipAction.Offers "clip" "other" := by
    unfold Offers
    decide
  have unreadable : ¬ (clipUnreadable.get? "details" = none ∨
      clipUnreadable.get? "details" = some .null ∨
      ∃ block, clipUnreadable.get? "details" = some (.object block)) := by
    simp [clipUnreadable, Submission.get?, OrderedMap.get?, OrderedMap.find]
  have present : ∃ block, clipRequested.get? "details" = some (.object block) := ⟨clipBlock, rfl⟩
  have requested : IsOpen (clipRequested.slot? "details" asked) := Or.inr (Or.inr rfl)
  have sound {entry : Option Json} (h : IsOpen entry) : ¬ IsSpoiled entry :=
    fun spoiled => h.not_isDispatched spoiled.isDispatched
  have loaded := isLoaded_clipAction
  obtain ⟨unknown, -⟩ :=
    hand_in_rules_exact loaded clipUnreadable "clip" "other" ⟨"hello", "en"⟩ ⟨0, 0⟩
  obtain ⟨-, broken, -⟩ :=
    hand_in_rules_exact loaded clipUnreadable "clip" "manual" ⟨"hello", "en"⟩ ⟨0, 0⟩
  obtain ⟨-, -, unasked, -⟩ :=
    hand_in_rules_exact loaded clipRequested "clip" "acme" ⟨"hello", "en"⟩ ⟨0, 0⟩
  obtain ⟨-, -, -, taken, frame⟩ :=
    hand_in_rules_exact loaded clipRequested "clip" "manual" ⟨"hello", "en"⟩ ⟨0, 0⟩
  obtain ⟨after, hafter⟩ := taken.mpr
    ⟨byHand, Or.inr (Or.inr present), sound (Or.inl rfl), Or.inl rfl⟩
  obtain ⟨-, others⟩ := frame after hafter
  refine ⟨loaded, unknown.mpr noOther, broken.mpr ⟨byHand, Or.inl unreadable⟩, ?_, after,
    hafter, ?_⟩
  · exact unasked.mpr ⟨byAcme, Or.inr (Or.inr present), sound requested, by decide,
      requested.not_isDispatched⟩
  · exact others ⟨"clip", "acme", asked⟩ (by decide) (by decide)

end TranscriptionAction

end SubmissionAnnotation
