import SubmissionAnnotation.Proofs.Dispatch
import SubmissionAnnotation.Proofs.Lifecycle

/-!
# The history of a slot

A text that is accepted for a slot replaces the transcript there and keeps it as the
newest revision. Change runs and texts for other slots leave a transcript alone, so
the transcript at the end of a run is that of the start with the accepted texts put
onto it one after the other, whatever happened in between. Only the wish of a user
breaks this chain: it is written over the transcript, and the next text starts anew.
-/
namespace SubmissionAnnotation

structure Handover where
  input : TranscriptInput
  now : Instant

/-- The texts of a transcript, newest first, and none where there is no transcript. -/
def trail : Option TranscriptValue → List TranscriptRevision
  | none => []
  | some t => t.toRevision :: t.revisions

namespace Handover

variable {engine : String} {held : Option TranscriptValue} {h : Handover}

def revision (engine : String) (h : Handover) : TranscriptRevision where
  value := h.input.value
  engine := some engine
  dateModified := some h.now.stamp
  hash := some (contentHash h.input.value)
  languageCode := some h.input.languageCode

/-- The transcript that a text makes of the one that a slot held, if it held one. -/
def onto (engine : String) (held : Option TranscriptValue) (h : Handover) : TranscriptValue :=
  match held with
  | none => .fresh h.input engine h.now
  | some t => t.revise h.input engine h.now

theorem toRevision_onto : (h.onto engine held).toRevision = h.revision engine := by
  cases held <;> rfl

theorem revisions_onto : (h.onto engine held).revisions = trail held := by
  cases held <;> rfl

theorem dateCreated_onto :
    (h.onto engine held).dateCreated =
      (held.bind TranscriptValue.dateCreated <|> some h.now.stamp) := by
  cases held <;> rfl

/-- What a slot holds after these texts, the first one first. -/
def replay (engine : String) (held : Option TranscriptValue) (texts : List Handover) :
    Option TranscriptValue :=
  texts.foldl (fun held h => some (h.onto engine held)) held

theorem replay_append (engine : String) (held : Option TranscriptValue)
    (before after : List Handover) :
    replay engine held (before ++ after) = replay engine (replay engine held before) after :=
  List.foldl_append

theorem trail_replay (engine : String) (held : Option TranscriptValue) (texts : List Handover) :
    trail (replay engine held texts) = texts.reverse.map (revision engine) ++ trail held := by
  induction texts generalizing held with
  | nil => rfl
  | cons h rest ih =>
    have hstep : trail (some (h.onto engine held)) = h.revision engine :: trail held := by
      rw [trail, toRevision_onto, revisions_onto]
    rw [replay, List.foldl_cons, ← replay, ih, hstep]
    simp

theorem dateCreated_replay (engine : String) (held : Option TranscriptValue)
    (texts : List Handover) :
    (replay engine held texts).bind TranscriptValue.dateCreated =
      (held.bind TranscriptValue.dateCreated <|> texts.head?.map fun h => h.now.stamp) := by
  induction texts generalizing held with
  | nil => simp [replay]
  | cons h rest ih =>
    rw [replay, List.foldl_cons, ← replay, ih, Option.bind_some, dateCreated_onto]
    cases held.bind TranscriptValue.dateCreated <;> rfl

/-- The transcript after some texts: the last one is its own, those before are its newest
revisions, and the first one gives it a date of creation if it has none. -/
theorem exists_replay_concat (engine : String) (held : Option TranscriptValue)
    (earlier : List Handover) (last : Handover) (h : earlier ++ [last] ≠ []) :
    ∃ t, replay engine held (earlier ++ [last]) = some t ∧
      t.toRevision = last.revision engine ∧
      t.dateCreated = (held.bind TranscriptValue.dateCreated <|>
        some ((earlier ++ [last]).head h).now.stamp) ∧
      t.revisions = earlier.reverse.map (revision engine) ++ trail held := by
  have hlast : replay engine held (earlier ++ [last]) =
      some (last.onto engine (replay engine held earlier)) :=
    replay_append engine held earlier [last]
  refine ⟨_, hlast, toRevision_onto, ?_, ?_⟩
  · have hcreated := dateCreated_replay engine held (earlier ++ [last])
    rwa [hlast, Option.bind_some, List.head?_eq_some_head h, Option.map_some] at hcreated
  · rw [revisions_onto, trail_replay]

end Handover

def transcriptIn? : Option Json → Option TranscriptValue
  | some (.object result) => (TranscriptValue.record.decode (.object result)).toOption
  | _ => none

theorem transcriptIn?_of_decode {result : OrderedMap Json} {t : TranscriptValue}
    (h : TranscriptValue.record.decode (.object result) = .ok t) :
    transcriptIn? (some (.object result)) = some t := by
  rw [transcriptIn?, h]
  rfl

theorem transcriptIn?_encode (t : TranscriptValue) :
    transcriptIn? (some (TranscriptValue.record.encode t)) = some t :=
  transcriptIn?_of_decode (TranscriptValue.lawful_record t)

theorem transcriptIn?_of_not_isResult {entry : Option Json} (h : ¬ IsResult entry) :
    transcriptIn? entry = none := by
  unfold transcriptIn?
  split
  · next result => exact absurd ⟨result, rfl⟩ h
  · rfl

theorem transcriptIn?_eq_some_iff {entry : Option Json} {t : TranscriptValue} :
    transcriptIn? entry = some t ↔ ∃ result, entry = some (.object result) ∧
      TranscriptValue.record.decode (.object result) = .ok t := by
  constructor
  · intro h
    unfold transcriptIn? at h
    split at h
    · next result =>
      cases hd : TranscriptValue.record.decode (.object result) with
      | error e =>
        rw [hd] at h
        cases h
      | ok t' =>
        rw [hd] at h
        cases h
        exact ⟨result, rfl, hd⟩
    · cases h
  · rintro ⟨result, rfl, hd⟩
    exact transcriptIn?_of_decode hd

theorem SlotMove.transcriptIn?_eq {σ : Session} {key : String} {entry next : Option Json}
    (h : SlotMove σ key .change entry next) : transcriptIn? next = transcriptIn? entry := by
  cases h <;> rfl

theorem TranscriptionAction.eq_onto_of_answer {a : TranscriptionAction} {s : Submission}
    {p : FieldServicePair} {input : TranscriptInput} {now : Instant} {t : TranscriptValue}
    (h : a.answer s p input now = .ok t) :
    t = Handover.onto (engineName p.service) (transcriptIn? (s.slot? a.destination p.key))
      ⟨input, now⟩ := by
  rcases nextTranscript_eq_ok h with ⟨result, old, hs, hd, rfl⟩ | ⟨hno, -, rfl⟩
  · rw [hs, transcriptIn?_of_decode hd]
    rfl
  · have hr : ¬ IsResult (s.slot? a.destination p.key) := fun ⟨result, hs⟩ => hno result hs
    rw [transcriptIn?_of_not_isResult hr]
    rfl

namespace Session

open TranscriptionAction (clipAction)

variable {σ : Session} {p : FieldServicePair}

def accepted? (σ : Session) (p : FieldServicePair) : Step → Option Handover
  | .record field service input now =>
    if field = p.field ∧ service = p.service ∧
        (σ.action.recordTranscript σ.submission field service input now).isOk then
      some ⟨input, now⟩
    else none
  | _ => none

/-- The texts that a run hands in for a slot with success, in their order. -/
def accepted (p : FieldServicePair) : Session → List Step → List Handover
  | _, [] => []
  | σ, first :: rest => (σ.accepted? p first).toList ++ accepted p (σ.step first) rest

section HandIn

variable {field service : String} {input : TranscriptInput} {now : Instant}

theorem accepted?_of_error {e : ActionError}
    (h : σ.action.recordTranscript σ.submission field service input now = .error e) :
    σ.accepted? p (.record field service input now) = none := by
  simp [accepted?, h, Except.isOk, Except.toBool]

theorem accepted?_of_ok {after : Submission}
    (h : σ.action.recordTranscript σ.submission field service input now = .ok after) :
    σ.accepted? p (.record field service input now) =
      if field = p.field ∧ service = p.service then some ⟨input, now⟩ else none := by
  simp [accepted?, h, Except.isOk, Except.toBool]

end HandIn

theorem transcriptIn?_step_record (loaded : σ.action.IsLoaded) (tracked : p ∈ σ.action.matrix.pairs)
    (field service : String) (input : TranscriptInput) (now : Instant) :
    transcriptIn? ((σ.step (.record field service input now)).slot? p.key) =
      Handover.replay (engineName p.service) (transcriptIn? (σ.slot? p.key))
        (σ.accepted? p (.record field service input now)).toList := by
  cases hr : σ.action.recordTranscript σ.submission field service input now with
  | error e =>
    rw [slot?_step_of_eq (submission_step_record_of_error hr), accepted?_of_error hr]
    rfl
  | ok after =>
    obtain ⟨q, t, hq, -, ha, rfl⟩ := TranscriptionAction.recordTranscript_eq_ok_iff.mp hr
    obtain ⟨hm, hf, hs⟩ := FieldServiceMatrix.of_find?_eq_some hq
    rw [slot?_step_of_withSupplemental (submission_step_record_of_ok hr),
      TranscriptionAction.answeredBlock, OrderedMap.get?_insert, accepted?_of_ok hr]
    by_cases hp : field = p.field ∧ service = p.service
    · obtain ⟨rfl, rfl⟩ := hp
      obtain rfl : p = q :=
        Option.some.inj ((TranscriptionAction.find?_of_mem_matrix tracked).symm.trans hq)
      rw [if_pos rfl, if_pos ⟨rfl, rfl⟩, transcriptIn?_encode,
        TranscriptionAction.eq_onto_of_answer ha]
      rfl
    · -- Loading made sure that another slot has another key, so the transcript is not overwritten.
      have hne : p.key ≠ q.key := by
        intro hk
        obtain rfl := loaded.eq_of_key_eq tracked hm hk
        exact hp ⟨hf.symm, hs.symm⟩
      rw [if_neg hne, if_neg hp]
      rfl

theorem transcriptIn?_step (loaded : σ.action.IsLoaded) (tracked : p ∈ σ.action.matrix.pairs)
    {step : Step} (own : step.isLoad = false ∧ step.isRequest = false) :
    transcriptIn? ((σ.step step).slot? p.key) =
      Handover.replay (engineName p.service) (transcriptIn? (σ.slot? p.key))
        (σ.accepted? p step).toList := by
  cases step with
  | load record => cases own.1
  | change => exact (slotMove_change σ p.key).transcriptIn?_eq
  | record field service input now =>
    exact transcriptIn?_step_record loaded tracked field service input now
  | request key => cases own.2

/-- A run puts the texts that it hands in with success onto the transcript of a slot. -/
theorem transcriptIn?_run (loaded : σ.action.IsLoaded) (tracked : p ∈ σ.action.matrix.pairs)
    {steps : List Step} (own : ∀ step ∈ steps, step.isLoad = false ∧ step.isRequest = false) :
    transcriptIn? ((σ.run steps).slot? p.key) =
      Handover.replay (engineName p.service) (transcriptIn? (σ.slot? p.key))
        (σ.accepted p steps) := by
  induction steps generalizing σ with
  | nil => rfl
  | cons first rest ih =>
    have hf := own first List.mem_cons_self
    have haction : (σ.step first).action = σ.action := action_step hf.1
    have hrest := ih (haction ▸ loaded) (haction ▸ tracked)
      fun step hs => own step (List.mem_cons_of_mem first hs)
    rw [run_cons, hrest, transcriptIn?_step loaded tracked hf, accepted, Handover.replay_append]

/-- The revision chain is exact. After a run of change runs and texts handed in, in which
the texts `earlier` and then `last` were accepted for a slot, the slot holds a transcript
that reads as `last` and keeps all earlier texts, newest first. It goes on from the
transcript that the slot held at the start, if there was one, and is as old as that. -/
theorem revision_chain_exact (σ : Session) (loaded : σ.action.IsLoaded)
    (tracked : p ∈ σ.action.matrix.pairs) (steps : List Step)
    (own : ∀ step ∈ steps, step.isLoad = false ∧ step.isRequest = false)
    (earlier : List Handover) (last : Handover)
    (handed : σ.accepted p steps = earlier ++ [last]) :
    let engine := engineName p.service
    let first := (earlier ++ [last]).head (List.append_ne_nil_of_right_ne_nil _ nofun)
    ∃ result t, (σ.run steps).slot? p.key = some (.object result) ∧
      TranscriptValue.record.decode (.object result) = .ok t ∧
      t.toRevision = last.revision engine ∧
      (¬ IsResult (σ.slot? p.key) →
        t.dateCreated = some first.now.stamp ∧
        t.revisions = earlier.reverse.map (Handover.revision engine)) ∧
      ∀ old t₀, σ.slot? p.key = some (.object old) →
        TranscriptValue.record.decode (.object old) = .ok t₀ →
        t.dateCreated = some (t₀.dateCreated.getD first.now.stamp) ∧
        t.revisions =
          earlier.reverse.map (Handover.revision engine) ++ t₀.toRevision :: t₀.revisions := by
  intro engine first
  have hrun := transcriptIn?_run loaded tracked own
  rw [handed] at hrun
  obtain ⟨t, hreplay, hlast, hcreated, hrevisions⟩ :=
    Handover.exists_replay_concat engine (transcriptIn? (σ.slot? p.key)) earlier last
      (List.append_ne_nil_of_right_ne_nil _ nofun)
  obtain ⟨result, hslot, hdecode⟩ := transcriptIn?_eq_some_iff.mp (hrun.trans hreplay)
  refine ⟨result, t, hslot, hdecode, hlast, ?_, ?_⟩
  · intro hno
    rw [hcreated, hrevisions, transcriptIn?_of_not_isResult hno]
    exact ⟨rfl, List.append_nil _⟩
  · intro old t₀ hold ht₀
    rw [hcreated, hrevisions, hold, transcriptIn?_of_decode ht₀]
    refine ⟨?_, rfl⟩
    cases h : t₀.dateCreated <;> simp [first, h]

/-- A transcript of unknown age, corrected by hand twice; in between, a service that was
not asked is refused. -/
theorem revision_chain_exact_corrected :
    let key := "clip_transcription_manual"
    let found : TranscriptValue := ⟨"hel", none, none, none, none, none, []⟩
    let block : SupplementalBlock := ⟨[(key, TranscriptValue.record.encode found)]⟩
    let σ : Session := ⟨clipAction, ⟨⟨[("details", .object block)]⟩⟩, .empty⟩
    let p : FieldServicePair := ⟨"clip", "manual", key⟩
    let first : Handover := ⟨⟨"helo", "en"⟩, ⟨0, 0⟩⟩
    let last : Handover := ⟨⟨"hello", "en"⟩, ⟨60, 0⟩⟩
    let steps : List Step :=
      [.record "clip" "manual" first.input first.now, .record "clip" "acme" ⟨"hallo", "de"⟩ ⟨1, 0⟩,
        .record "clip" "manual" last.input last.now]
    σ.action.IsLoaded ∧ p ∈ σ.action.matrix.pairs ∧
      (∀ step ∈ steps, step.isLoad = false ∧ step.isRequest = false) ∧
      σ.accepted p steps = [first] ++ [last] ∧
      ∃ result t, (σ.run steps).slot? key = some (.object result) ∧
        TranscriptValue.record.decode (.object result) = .ok t ∧
        t.toRevision = last.revision (engineName "manual") ∧
        t.dateCreated = some first.now.stamp ∧
        t.revisions = [first.revision (engineName "manual"), found.toRevision] := by
  intro key found block σ p first last steps
  have loaded : σ.action.IsLoaded := TranscriptionAction.isLoaded_clipAction
  have tracked : p ∈ σ.action.matrix.pairs := by decide
  have own : ∀ step ∈ steps, step.isLoad = false ∧ step.isRequest = false := by decide
  have handed : σ.accepted p steps = [first] ++ [last] := rfl
  obtain ⟨result, t, hslot, hdecode, hlast, -, hfound⟩ :=
    revision_chain_exact σ loaded tracked steps own [first] last handed
  obtain ⟨hcreated, hrevisions⟩ := hfound _ found rfl (TranscriptValue.lawful_record found)
  exact ⟨loaded, tracked, own, handed, result, t, hslot, hdecode, hlast, hcreated, hrevisions⟩

end Session

/-! ## Asking again -/

namespace TranscriptionAction

variable {a : TranscriptionAction} {s : Submission} {p : FieldServicePair} {t : TranscriptValue}

/-- A user asks for a slot, a change run takes the wish up, and a text is handed in for it. -/
def askAgain (a : TranscriptionAction) (s : Submission) (p : FieldServicePair)
    (input : TranscriptInput) (now : Instant) : Except ActionError Submission := do
  let asked ← s.withSlot a.destination p.key FieldStatus.requestedByUser.toValue
  let dispatched ← a.runChange asked
  a.recordTranscript dispatched p.field p.service input now

/-- Whatever stood in the slot is gone once the wish was written into it. -/
theorem exists_askAgain (tracked : p ∈ a.matrix.pairs) (h : s.Readable a.destination)
    (input : TranscriptInput) (now : Instant) :
    ∃ done, a.askAgain s p input now = .ok done ∧ done.slot? a.destination p.key =
      some (TranscriptValue.record.encode (.fresh input (engineName p.service) now)) := by
  set asked := s.withSupplemental a.destination
    ((s.blockAt a.destination).insert p.key FieldStatus.requestedByUser.toValue) with hasked
  set dispatched := asked.withSupplemental a.destination
    (a.advanced (asked.blockAt a.destination)).block with hdispatched
  have hw : s.withSlot a.destination p.key FieldStatus.requestedByUser.toValue = .ok asked :=
    Submission.withSlot_of_readable h p.key _
  have hc : a.runChange asked = .ok dispatched :=
    runChange_of_readable (Submission.readable_withSupplemental _ _ _)
  have hwish : isAsked (asked.slot? a.destination p.key) = true := by
    rw [hasked, Submission.slot?_withSupplemental, OrderedMap.get?_insert_self,
      isAsked_requestedByUser]
  have hpending : dispatched.slot? a.destination p.key = some FieldStatus.pending.toValue := by
    rw [hdispatched, Submission.slot?_withSupplemental]
    exact get?_advanced_of_isAsked (FieldServiceMatrix.key_mem_keys tracked) hwish
  obtain ⟨done, hr, hslot⟩ := exists_recordTranscript_of_answer tracked
    (Submission.readable_of_slot?_eq_some hpending) (answer_of_pending hpending)
  exact ⟨done, by simp only [askAgain, hw, hc, hr, bind, Except.bind], hslot⟩

/-- A text that is handed in for a transcript keeps the history of it. But if a user asks
for the slot again first, the wish takes the place of the transcript, and the text that
comes then is the first of a new one: it has another date of creation and no revisions. -/
theorem history_ends_with_wish (tracked : p ∈ a.matrix.pairs)
    (held : s.slot? a.destination p.key = some (TranscriptValue.record.encode t))
    (input : TranscriptInput) (now : Instant) :
    (∃ done, a.recordTranscript s p.field p.service input now = .ok done ∧
      done.slot? a.destination p.key =
        some (TranscriptValue.record.encode (t.revise input (engineName p.service) now))) ∧
    ∃ done, a.askAgain s p input now = .ok done ∧ done.slot? a.destination p.key =
      some (TranscriptValue.record.encode (.fresh input (engineName p.service) now)) := by
  have hr := Submission.readable_of_slot?_eq_some held
  have ha : a.answer s p input now = .ok (t.revise input (engineName p.service) now) := by
    rw [answer, held]
    exact nextTranscript_of_object (TranscriptValue.lawful_record t) p input now
  exact ⟨exists_recordTranscript_of_answer tracked hr ha, exists_askAgain tracked hr input now⟩

/-- A service was asked twice, and its first text cannot be found any more. -/
theorem history_ends_with_wish_answered_twice :
    let p : FieldServicePair := ⟨"clip", "acme", "clip_transcription_acme"⟩
    let engine := engineName "acme"
    let t : TranscriptValue := .fresh ⟨"hallo", "de"⟩ engine ⟨0, 0⟩
    let block : SupplementalBlock := ⟨[(p.key, TranscriptValue.record.encode t)]⟩
    let s : Submission := ⟨⟨[("clip", .string "clip.mp3"), ("details", .object block)]⟩⟩
    let input : TranscriptInput := ⟨"hello", "en"⟩
    p ∈ clipAction.matrix.pairs ∧
      s.slot? clipAction.destination p.key = some (TranscriptValue.record.encode t) ∧
      ∃ done, clipAction.askAgain s p input ⟨60, 0⟩ = .ok done ∧
        done.slot? clipAction.destination p.key =
          some (TranscriptValue.record.encode (.fresh input engine ⟨60, 0⟩)) := by
  intro p engine t block s input
  have tracked : p ∈ clipAction.matrix.pairs := by decide
  have held : s.slot? clipAction.destination p.key = some (TranscriptValue.record.encode t) := rfl
  exact ⟨tracked, held, (history_ends_with_wish tracked held input ⟨60, 0⟩).2⟩

/-- It is not so that a transcript which was handed in and asked for again keeps its
date of creation and goes on with its history. -/
theorem not_history_survives_wish :
    ¬ ∀ (a : TranscriptionAction) (p : FieldServicePair) (before s : Submission)
        (t : TranscriptValue) (old new : TranscriptInput) (past now : Instant),
      a.IsLoaded → p ∈ a.matrix.pairs →
      a.recordTranscript before p.field p.service old past = .ok s →
      s.slot? a.destination p.key = some (TranscriptValue.record.encode t) →
      ∃ done t', a.askAgain s p new now = .ok done ∧
        done.slot? a.destination p.key = some (TranscriptValue.record.encode t') ∧
        t'.dateCreated = t.dateCreated ∧ t'.revisions = t.toRevision :: t.revisions := by
  intro survives
  let p : FieldServicePair := ⟨"clip", "acme", "clip_transcription_acme"⟩
  let before : Submission :=
    ⟨⟨[("details", .object ⟨[(p.key, FieldStatus.pending.toValue)]⟩)]⟩⟩
  have tracked : p ∈ clipAction.matrix.pairs := by decide
  have pending : before.slot? clipAction.destination p.key = some FieldStatus.pending.toValue := rfl
  have ha : clipAction.answer before p ⟨"hallo", "de"⟩ ⟨0, 0⟩ =
      .ok (.fresh ⟨"hallo", "de"⟩ (engineName p.service) ⟨0, 0⟩) := answer_of_pending pending
  obtain ⟨s, hs, hslot⟩ := exists_recordTranscript_of_answer tracked
    (Submission.readable_of_slot?_eq_some pending) ha
  obtain ⟨done, t', hdone, ht', -, hrevisions⟩ := survives clipAction p before s _ ⟨"hallo", "de"⟩
    ⟨"hello", "en"⟩ ⟨0, 0⟩ ⟨60, 0⟩ isLoaded_clipAction tracked hs hslot
  obtain ⟨done', hdone', hfresh⟩ := exists_askAgain tracked
    (Submission.readable_of_slot?_eq_some hslot) ⟨"hello", "en"⟩ ⟨60, 0⟩
  obtain rfl : done = done' := Except.ok.inj (hdone.symm.trans hdone')
  have hsame : some t' = some (.fresh ⟨"hello", "en"⟩ (engineName p.service) ⟨60, 0⟩) := by
    rw [← transcriptIn?_encode t', ← ht', hfresh, transcriptIn?_encode]
  rw [Option.some.inj hsame] at hrevisions
  exact List.cons_ne_nil _ _ hrevisions.symm

end TranscriptionAction

end SubmissionAnnotation
