import SubmissionAnnotation.Transcription
import SubmissionAnnotation.Proofs.Advance

/-!
# Writing a transcript into a slot

Handing in a text either fails, for one of three reasons that are looked for in a fixed order, or
writes one slot: that of the field and the service, which `find?` gives.
-/
namespace SubmissionAnnotation

namespace FieldServiceMatrix

variable {m : FieldServiceMatrix} {field service : String} {p : FieldServicePair}

theorem of_find?_eq_some (h : m.find? field service = some p) :
    p ∈ m.pairs ∧ p.field = field ∧ p.service = service := by
  have hp := List.find?_some h
  simp only [Bool.and_eq_true, decide_eq_true_eq] at hp
  exact ⟨List.mem_of_find?_eq_some h, hp⟩

theorem find?_eq_none_iff :
    m.find? field service = none ↔ ∀ p ∈ m.pairs, ¬ (p.field = field ∧ p.service = service) := by
  simp [find?]

theorem key_mem_keys (h : p ∈ m.pairs) : p.key ∈ m.keys :=
  List.mem_map_of_mem h

variable {fields services : OrderedSet} {joiner : String}

theorem mem_servicesOf :
    service ∈ servicesOf services ↔ service = manualService ∨ service ∈ services.items := by
  by_cases h : service = manualService <;> simp [servicesOf, h]

theorem mem_generate_iff :
    p ∈ (generate fields services joiner).pairs ↔
      p.field ∈ fields.items ∧ p.service ∈ servicesOf services ∧
        p = .ofNames p.field p.service joiner := by
  simp only [generate, row, List.mem_flatMap, List.mem_map]
  constructor
  · rintro ⟨field, hf, service, hs, rfl⟩
    exact ⟨hf, hs, rfl⟩
  · rintro ⟨hf, hs, hp⟩
    exact ⟨p.field, hf, p.service, hs, hp.symm⟩

/-- Field and service determine a slot of a generated matrix, so the first match is the only one. -/
theorem find?_generate_of_mem (h : p ∈ (generate fields services joiner).pairs) :
    (generate fields services joiner).find? p.field p.service = some p := by
  cases hq : (generate fields services joiner).find? p.field p.service with
  | none => exact absurd ⟨rfl, rfl⟩ (find?_eq_none_iff.mp hq p h)
  | some q =>
    obtain ⟨hm, hf, hs⟩ := of_find?_eq_some hq
    have hp := (mem_generate_iff.mp h).2.2
    have hq := (mem_generate_iff.mp hm).2.2
    rw [hf, hs] at hq
    rw [hp, hq]

theorem exists_find?_generate_iff :
    (∃ p, (generate fields services joiner).find? field service = some p) ↔
      field ∈ fields.items ∧ (service = manualService ∨ service ∈ services.items) := by
  rw [← mem_servicesOf]
  constructor
  · rintro ⟨p, h⟩
    obtain ⟨hp, rfl, rfl⟩ := of_find?_eq_some h
    obtain ⟨hf, hs, -⟩ := mem_generate_iff.mp hp
    exact ⟨hf, hs⟩
  · rintro ⟨hf, hs⟩
    have hp : .ofNames field service joiner ∈ (generate fields services joiner).pairs :=
      mem_generate_iff.mpr ⟨hf, hs, rfl⟩
    exact ⟨_, find?_generate_of_mem hp⟩

end FieldServiceMatrix

namespace TranscriptionAction

variable {a : TranscriptionAction} {s : Submission} {field service : String}
  {input : TranscriptInput} {now : Instant} {p : FieldServicePair} {e : ActionError}

theorem find?_of_mem_matrix (h : p ∈ a.matrix.pairs) : a.matrix.find? p.field p.service = some p :=
  FieldServiceMatrix.find?_generate_of_mem h

theorem find?_manual (h : field ∈ a.fields.items) :
    a.matrix.find? field manualService = some (.ofNames field manualService keyJoiner) := by
  have hp : .ofNames field manualService keyJoiner ∈ a.matrix.pairs :=
    FieldServiceMatrix.mem_generate_iff.mpr
      ⟨h, FieldServiceMatrix.mem_servicesOf.mpr (Or.inl rfl), rfl⟩
  exact find?_of_mem_matrix hp

theorem nextTranscript_of_object {result : OrderedMap Json} {old : TranscriptValue}
    (h : TranscriptValue.record.decode (.object result) = .ok old) (p : FieldServicePair)
    (input : TranscriptInput) (now : Instant) :
    nextTranscript p ((some (Json.object result)).map FieldStatus.ofValue) input now =
      .ok (old.revise input (engineName p.service) now) := by
  simp [nextTranscript, FieldStatus.ofValue, h]

/-- A text is accepted as the next one of the transcript that the slot holds, or as the first one
of a slot without a result; that slot must wait for it unless it comes from a person. -/
theorem nextTranscript_eq_ok {entry : Option Json} {t : TranscriptValue}
    (h : nextTranscript p (entry.map FieldStatus.ofValue) input now = .ok t) :
    (∃ result old, entry = some (.object result) ∧
      TranscriptValue.record.decode (.object result) = .ok old ∧
      t = old.revise input (engineName p.service) now) ∨
    ((∀ result, entry ≠ some (.object result)) ∧
      (p.isManual = true ∨ entry = some FieldStatus.pending.toValue) ∧
      t = .fresh input (engineName p.service) now) := by
  by_cases ho : ∃ result, entry = some (.object result)
  · obtain ⟨result, rfl⟩ := ho
    cases hd : TranscriptValue.record.decode (.object result) with
    | error e => simp [nextTranscript, FieldStatus.ofValue, hd] at h
    | ok old =>
      rw [nextTranscript_of_object hd] at h
      exact Or.inl ⟨result, old, rfl, hd, (Except.ok.inj h).symm⟩
  · have hno : ∀ result, entry ≠ some (.object result) := fun result he => ho ⟨result, he⟩
    unfold nextTranscript at h
    split at h
    · next result hs =>
      obtain ⟨v, rfl, hv⟩ := Option.map_eq_some_iff.mp hs
      exact absurd (congrArg some (FieldStatus.eq_toValue_of_ofValue hv)) (hno result)
    · next hs =>
      obtain ⟨v, rfl, hv⟩ := Option.map_eq_some_iff.mp hs
      have he := congrArg some (FieldStatus.eq_toValue_of_ofValue hv)
      exact Or.inr ⟨hno, Or.inr he, (Except.ok.inj h).symm⟩
    · split at h
      · next hm => exact Or.inr ⟨hno, Or.inl hm, (Except.ok.inj h).symm⟩
      · cases h

/-- The transcript that the slot is to hold after a text was handed in for it. -/
def answer (a : TranscriptionAction) (s : Submission) (p : FieldServicePair)
    (input : TranscriptInput) (now : Instant) : Except ActionError TranscriptValue :=
  nextTranscript p ((s.slot? a.destination p.key).map FieldStatus.ofValue) input now

theorem text_of_answer {t : TranscriptValue} (h : a.answer s p input now = .ok t) :
    t.value = input.value ∧ t.languageCode = some input.languageCode ∧
      t.engine = some (engineName p.service) := by
  rcases nextTranscript_eq_ok h with ⟨_, old, -, -, rfl⟩ | ⟨-, -, rfl⟩ <;>
  exact ⟨rfl, rfl, rfl⟩

theorem answer_of_pending
    (h : s.slot? a.destination p.key = some FieldStatus.pending.toValue) :
    a.answer s p input now = .ok (.fresh input (engineName p.service) now) := by
  rw [answer, h, Option.map_some, FieldStatus.ofValue_toValue_pending]
  rfl

def answeredBlock (a : TranscriptionAction) (s : Submission) (p : FieldServicePair)
    (t : TranscriptValue) : SupplementalBlock :=
  (s.blockAt a.destination).insert p.key (TranscriptValue.record.encode t)

theorem recordTranscript_of_find?_eq_none (h : a.matrix.find? field service = none) :
    a.recordTranscript s field service input now = .error (.unknownFieldService field service) := by
  unfold recordTranscript
  rw [h]
  rfl

theorem recordTranscript_of_supplemental_error (hp : a.matrix.find? field service = some p)
    (he : s.supplemental a.destination = .error e) :
    a.recordTranscript s field service input now = .error e := by
  unfold recordTranscript
  rw [hp, he]
  rfl

theorem recordTranscript_of_answer {outcome : Except ActionError TranscriptValue}
    (hp : a.matrix.find? field service = some p) (h : s.Readable a.destination)
    (ha : a.answer s p input now = outcome) :
    a.recordTranscript s field service input now =
      outcome.map fun t => s.withSupplemental a.destination (a.answeredBlock s p t) := by
  obtain ⟨found, hf⟩ := h
  rw [← ha, answer, Submission.slot?]
  unfold answeredBlock
  rw [Submission.blockAt_of_supplemental hf]
  unfold recordTranscript
  rw [hp, hf]
  rfl

/-- Handing in a text fails for want of a slot, for a block that cannot be read or
for the state of the slot, and otherwise writes one transcript. -/
theorem recordTranscript_cases (a : TranscriptionAction) (s : Submission) (field service : String)
    (input : TranscriptInput) (now : Instant) :
    (a.matrix.find? field service = none ∧
      a.recordTranscript s field service input now =
        .error (.unknownFieldService field service)) ∨
    (∃ e, s.supplemental a.destination = .error e ∧
      a.recordTranscript s field service input now = .error e) ∨
    (∃ p e, a.matrix.find? field service = some p ∧ a.answer s p input now = .error e ∧
      a.recordTranscript s field service input now = .error e) ∨
    (∃ p t, a.matrix.find? field service = some p ∧ s.Readable a.destination ∧
      a.answer s p input now = .ok t ∧
      a.recordTranscript s field service input now =
        .ok (s.withSupplemental a.destination (a.answeredBlock s p t))) := by
  cases hp : a.matrix.find? field service with
  | none => exact Or.inl ⟨rfl, recordTranscript_of_find?_eq_none hp⟩
  | some p =>
    rcases s.readable_or_error a.destination with hr | ⟨e, he⟩
    · cases ha : a.answer s p input now with
      | error e =>
        exact Or.inr (Or.inr (Or.inl ⟨p, e, rfl, ha, recordTranscript_of_answer hp hr ha⟩))
      | ok t =>
        exact Or.inr (Or.inr (Or.inr ⟨p, t, rfl, hr, ha, recordTranscript_of_answer hp hr ha⟩))
    · exact Or.inr (Or.inl ⟨e, he, recordTranscript_of_supplemental_error hp he⟩)

theorem recordTranscript_eq_ok_iff {after : Submission} :
    a.recordTranscript s field service input now = .ok after ↔
      ∃ p t, a.matrix.find? field service = some p ∧ s.Readable a.destination ∧
        a.answer s p input now = .ok t ∧
        after = s.withSupplemental a.destination (a.answeredBlock s p t) := by
  constructor
  · intro h
    rcases a.recordTranscript_cases s field service input now with
      ⟨-, hr⟩ | ⟨e, -, hr⟩ | ⟨p, e, -, -, hr⟩ | ⟨p, t, hp, hs, ha, hr⟩
    · cases hr.symm.trans h
    · cases hr.symm.trans h
    · cases hr.symm.trans h
    · exact ⟨p, t, hp, hs, ha, Except.ok.inj (h.symm.trans hr)⟩
  · rintro ⟨p, t, hp, hs, ha, rfl⟩
    exact recordTranscript_of_answer hp hs ha

theorem slot?_answered (a : TranscriptionAction) (s : Submission) (p : FieldServicePair)
    (t : TranscriptValue) :
    (s.withSupplemental a.destination (a.answeredBlock s p t)).slot? a.destination p.key =
      some (TranscriptValue.record.encode t) := by
  rw [Submission.slot?_withSupplemental, answeredBlock, OrderedMap.get?_insert_self]

theorem recordTranscript_withSupplemental {block : SupplementalBlock} {t : TranscriptValue}
    (hp : a.matrix.find? field service = some p)
    (ha : a.answer (s.withSupplemental a.destination block) p input now = .ok t) :
    a.recordTranscript (s.withSupplemental a.destination block) field service input now =
      .ok (s.withSupplemental a.destination
        (block.insert p.key (TranscriptValue.record.encode t))) := by
  have h := recordTranscript_of_answer hp (Submission.readable_withSupplemental _ _ _) ha
  rw [Except.map, answeredBlock, Submission.blockAt_withSupplemental,
    Submission.withSupplemental_withSupplemental] at h
  exact h

theorem exists_recordTranscript_of_answer (tracked : p ∈ a.matrix.pairs)
    (h : s.Readable a.destination) {t : TranscriptValue} (ha : a.answer s p input now = .ok t) :
    ∃ done, a.recordTranscript s p.field p.service input now = .ok done ∧
      done.slot? a.destination p.key = some (TranscriptValue.record.encode t) :=
  ⟨_, recordTranscript_of_answer (find?_of_mem_matrix tracked) h ha, slot?_answered a s p t⟩

end TranscriptionAction

end SubmissionAnnotation
