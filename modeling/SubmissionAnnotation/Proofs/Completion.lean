import SubmissionAnnotation.Proofs.Dispatch

/-!
# Completing the requests of a change run

The requests of one change run name different slots, and each finds its slot waiting.
Completing one of them writes one entry that is there already, so it moves no key,
and the other slots wait on. The answers can therefore come in any order: all of them
are accepted, and they always leave the same submission.
-/
namespace SubmissionAnnotation

namespace OrderedMap

variable {α : Type} {m : OrderedMap α} {writes others : List (String × α)} {key : String}
  {value : α}

def insertAll (m : OrderedMap α) (writes : List (String × α)) : OrderedMap α :=
  writes.foldl (fun m write => m.insert write.1 write.2) m

theorem keys_insertAll (present : ∀ write ∈ writes, write.1 ∈ m.keys) :
    (m.insertAll writes).keys = m.keys := by
  induction writes generalizing m with
  | nil => rfl
  | cons write rest ih =>
    have hk := keys_insert_of_mem write.2 (present write List.mem_cons_self)
    have hr : ∀ w ∈ rest, w.1 ∈ (m.insert write.1 write.2).keys := by
      intro w hw
      rw [hk]
      exact present w (List.mem_cons_of_mem write hw)
    exact (ih hr).trans hk

theorem get?_insertAll_of_not_mem (h : key ∉ writes.map Prod.fst) :
    (m.insertAll writes).get? key = m.get? key := by
  induction writes generalizing m with
  | nil => rfl
  | cons write rest ih =>
    rw [List.map_cons, List.mem_cons, not_or] at h
    exact (ih h.2).trans (get?_insert_of_ne h.1 m write.2)

theorem get?_insertAll_of_mem (distinct : (writes.map Prod.fst).Nodup)
    (h : (key, value) ∈ writes) : (m.insertAll writes).get? key = some value := by
  induction writes generalizing m with
  | nil => cases h
  | cons write rest ih =>
    rw [List.map_cons, List.nodup_cons] at distinct
    rcases List.mem_cons.mp h with rfl | h
    · exact (get?_insertAll_of_not_mem distinct.1).trans (get?_insert_self m key value)
    · exact ih distinct.2 h

/-- Writes to different entries that are all there already can be made in any order. -/
theorem insertAll_perm (h : writes.Perm others) (distinct : (writes.map Prod.fst).Nodup)
    (present : ∀ write ∈ writes, write.1 ∈ m.keys) : m.insertAll writes = m.insertAll others := by
  induction h generalizing m with
  | nil => rfl
  | cons write _ ih =>
    rw [List.map_cons, List.nodup_cons] at distinct
    refine ih distinct.2 fun w hw => ?_
    rw [keys_insert_of_mem write.2 (present write List.mem_cons_self)]
    exact present w (List.mem_cons_of_mem write hw)
  | swap first second rest =>
    have hne : first.1 ≠ second.1 := by
      intro h
      simp [h] at distinct
    have hk : first.1 ∈ m.keys := present first (by simp)
    have hswap := insert_comm_of_mem hne hk first.2 second.2
    exact congrArg (insertAll · rest) hswap
  | trans h _ ih₁ ih₂ =>
    have distinct' := (h.map Prod.fst).nodup_iff.mp distinct
    exact (ih₁ distinct present).trans
      (ih₂ distinct' fun write hw => present write (h.mem_iff.mpr hw))

end OrderedMap

def TranscriptionRequest.slot (r : TranscriptionRequest) : FieldServicePair :=
  ⟨r.field, r.service, r.key⟩

/-- What comes back for requests: the text for each of them, and when it is handed in. -/
structure Answers where
  input : TranscriptionRequest → TranscriptInput
  now : TranscriptionRequest → Instant

namespace Answers

def transcript (answers : Answers) (r : TranscriptionRequest) : TranscriptValue :=
  .fresh (answers.input r) r.engine (answers.now r)

def write (answers : Answers) (r : TranscriptionRequest) : String × Json :=
  (r.key, TranscriptValue.record.encode (answers.transcript r))

theorem keys_map_write (answers : Answers) (order : List TranscriptionRequest) :
    (order.map answers.write).map Prod.fst = order.map TranscriptionRequest.key := by
  rw [List.map_map]
  rfl

end Answers

namespace TranscriptionAction

variable {a : TranscriptionAction} {s : Submission} {r : TranscriptionRequest}
  {order : List TranscriptionRequest}

/-- Hands in the answers to requests, one after the other, until one is refused. -/
def completeAll (a : TranscriptionAction) (answers : Answers) (order : List TranscriptionRequest)
    (s : Submission) : Except ActionError Submission :=
  order.foldlM
    (fun s r => a.recordTranscript s r.field r.service (answers.input r) (answers.now r)) s

/-- A request that can be completed: its slot is one of the matrix, and its engine is
that of the service. -/
structure Addressed (a : TranscriptionAction) (r : TranscriptionRequest) : Prop where
  slot_mem : r.slot ∈ a.matrix.pairs
  engine_eq : r.engine = engineName r.service

theorem addressed_of_mem_askedRequests (h : r ∈ a.askedRequests s) : a.Addressed r := by
  obtain ⟨p, hp, rfl⟩ := List.mem_map.mp h
  exact ⟨(mem_askedSlots_iff.mp hp).1, rfl⟩

variable {block : SupplementalBlock}

theorem complete_of_pending (h : a.Addressed r)
    (pending : block.get? r.key = some FieldStatus.pending.toValue) (answers : Answers)
    (s : Submission) :
    a.recordTranscript (s.withSupplemental a.destination block) r.field r.service
        (answers.input r) (answers.now r) =
      .ok (s.withSupplemental a.destination
        (block.insert (answers.write r).1 (answers.write r).2)) := by
  have hs : (s.withSupplemental a.destination block).slot? a.destination r.slot.key =
      some FieldStatus.pending.toValue :=
    (Submission.slot?_withSupplemental s a.destination r.key block).trans pending
  have ha : a.answer (s.withSupplemental a.destination block) r.slot (answers.input r)
      (answers.now r) = .ok (answers.transcript r) := by
    rw [Answers.transcript, h.engine_eq]
    exact answer_of_pending hs
  exact recordTranscript_withSupplemental (find?_of_mem_matrix h.slot_mem) ha

theorem completeAll_of_pending (addressed : ∀ r ∈ order, a.Addressed r)
    (distinct : (order.map TranscriptionRequest.key).Nodup)
    (pending : ∀ r ∈ order, block.get? r.key = some FieldStatus.pending.toValue)
    (answers : Answers) (s : Submission) :
    a.completeAll answers order (s.withSupplemental a.destination block) =
      .ok (s.withSupplemental a.destination (block.insertAll (order.map answers.write))) := by
  induction order generalizing block with
  | nil => rfl
  | cons r rest ih =>
    rw [List.map_cons, List.nodup_cons] at distinct
    have hfirst := complete_of_pending (addressed r List.mem_cons_self)
      (pending r List.mem_cons_self) answers s
    have hrest : ∀ q ∈ rest, (block.insert (answers.write r).1 (answers.write r).2).get? q.key =
        some FieldStatus.pending.toValue := by
      intro q hq
      have hne : q.key ≠ r.key := fun h => distinct.1 (h ▸ List.mem_map_of_mem hq)
      exact (OrderedMap.get?_insert_of_ne hne block _).trans
        (pending q (List.mem_cons_of_mem r hq))
    unfold completeAll at ih ⊢
    rw [List.foldlM_cons, hfirst]
    exact ih (fun q hq => addressed q (List.mem_cons_of_mem r hq)) distinct.2 hrest

theorem mem_keys_of_pending (pending : block.get? r.key = some FieldStatus.pending.toValue) :
    r.key ∈ block.keys :=
  OrderedMap.mem_keys_of_get?_eq pending

theorem completeAll_of_perm {requests : List TranscriptionRequest}
    (addressed : ∀ r ∈ requests, a.Addressed r)
    (distinct : (requests.map TranscriptionRequest.key).Nodup)
    (pending : ∀ r ∈ requests, block.get? r.key = some FieldStatus.pending.toValue)
    (h : order.Perm requests) (answers : Answers) (s : Submission) :
    a.completeAll answers order (s.withSupplemental a.destination block) =
      .ok (s.withSupplemental a.destination (block.insertAll (requests.map answers.write))) := by
  have horder : block.insertAll (requests.map answers.write) =
      block.insertAll (order.map answers.write) := by
    refine OrderedMap.insertAll_perm (h.symm.map answers.write) ?_ ?_
    · rwa [answers.keys_map_write]
    · intro write hw
      obtain ⟨r, hr, rfl⟩ := List.mem_map.mp hw
      exact mem_keys_of_pending (pending r hr)
  rw [horder]
  exact completeAll_of_pending (fun r hr => addressed r (h.mem_iff.mp hr))
    ((h.map TranscriptionRequest.key).nodup_iff.mpr distinct)
    (fun r hr => pending r (h.mem_iff.mp hr)) answers s

theorem pending_of_mem_askedRequests (h : r ∈ a.askedRequests s) :
    (a.advanced (s.blockAt a.destination)).block.get? r.key =
      some FieldStatus.pending.toValue := by
  obtain ⟨hm, asked⟩ := mem_keys_askedRequests_iff.mp (List.mem_map_of_mem h)
  exact get?_advanced_of_isAsked hm asked

/-- What is left when the answers to the requests are in their slots and nothing else
was changed or moved. -/
structure Completed (a : TranscriptionAction) (answers : Answers)
    (requests : List TranscriptionRequest) (after final : Submission) : Prop where
  /-- The text is from the engine that was asked, and there was none before it. -/
  answered : ∀ r ∈ requests, final.slot? a.destination r.key =
    some (TranscriptValue.record.encode
      { value := (answers.input r).value
        engine := some r.engine
        dateCreated := some (answers.now r).stamp
        dateModified := some (answers.now r).stamp
        languageCode := some (answers.input r).languageCode
        hash := some (contentHash (answers.input r).value)
        revisions := [] })
  slot?_eq : ∀ key ∉ requests.map TranscriptionRequest.key,
    final.slot? a.destination key = after.slot? a.destination key
  block_keys : (final.blockAt a.destination).keys = (after.blockAt a.destination).keys
  get?_eq : ∀ key, key ≠ a.destination → final.get? key = after.get? key
  members_keys : final.members.keys = after.members.keys

theorem completed_insertAll {requests : List TranscriptionRequest}
    (distinct : (requests.map TranscriptionRequest.key).Nodup)
    (present : ∀ r ∈ requests, r.key ∈ block.keys) (answers : Answers) (s : Submission) :
    a.Completed answers requests (s.withSupplemental a.destination block)
      (s.withSupplemental a.destination (block.insertAll (requests.map answers.write))) := by
  have hkeys := answers.keys_map_write requests
  constructor
  · intro r hr
    rw [Submission.slot?_withSupplemental]
    exact OrderedMap.get?_insertAll_of_mem (hkeys ▸ distinct) (List.mem_map_of_mem hr)
  · intro key hk
    rw [Submission.slot?_withSupplemental, Submission.slot?_withSupplemental]
    exact OrderedMap.get?_insertAll_of_not_mem (hkeys ▸ hk)
  · rw [Submission.blockAt_withSupplemental, Submission.blockAt_withSupplemental]
    refine OrderedMap.keys_insertAll fun write hw => ?_
    obtain ⟨r, hr, rfl⟩ := List.mem_map.mp hw
    exact present r hr
  · intro key hk
    rw [Submission.get?_withSupplemental_of_ne hk, Submission.get?_withSupplemental_of_ne hk]
  · exact Submission.keys_withSupplemental_eq s a.destination _ _

/-- The requests of a change run that succeeds are for different slots of the matrix,
each of which now waits for its answer. Whatever the answers and in whatever order they
are handed in, all are accepted, and in the end there is one and the same submission:
each slot has its first transcript, and all else is as the run left it. -/
theorem completion_order_irrelevant (loaded : a.IsLoaded) (recorder : Recorder)
    {s after : Submission} {later : Recorder}
    (run : a.changeInto recorder s = (.ok after, later)) :
    ∃ requests, later.requests = recorder.requests ++ requests ∧
      (requests.map TranscriptionRequest.key).Nodup ∧
      (∀ r ∈ requests, r.slot ∈ a.matrix.pairs ∧ r.engine = engineName r.service ∧
        after.slot? a.destination r.key = some FieldStatus.pending.toValue) ∧
      ∀ answers : Answers, ∃ final, a.Completed answers requests after final ∧
        ∀ order, order.Perm requests → a.completeAll answers order after = .ok final := by
  have readable : s.Readable a.destination := by
    by_contra hn
    obtain ⟨e, he⟩ := changeInto_of_not_readable hn recorder
    cases he.symm.trans run
  rw [loaded.changeInto_of_readable readable] at run
  cases run
  have distinct := loaded.nodup_keys_askedRequests s
  have addressed : ∀ r ∈ a.askedRequests s, a.Addressed r :=
    fun r hr => addressed_of_mem_askedRequests hr
  have pending : ∀ r ∈ a.askedRequests s, (a.advanced (s.blockAt a.destination)).block.get? r.key =
      some FieldStatus.pending.toValue := fun r hr => pending_of_mem_askedRequests hr
  have present : ∀ r ∈ a.askedRequests s,
      r.key ∈ (a.advanced (s.blockAt a.destination)).block.keys :=
    fun r hr => mem_keys_of_pending (pending r hr)
  refine ⟨a.askedRequests s, rfl, distinct, ?_, fun answers => ?_⟩
  · intro r hr
    refine ⟨(addressed r hr).slot_mem, (addressed r hr).engine_eq, ?_⟩
    rw [Submission.slot?_withSupplemental]
    exact pending r hr
  · refine ⟨_, completed_insertAll distinct present answers s, ?_⟩
    intro order hperm
    exact completeAll_of_perm addressed distinct pending hperm answers s

/-- Two recordings, both asked for, and the objects that stand in their slots in the end. -/
theorem completion_order_irrelevant_two_requests :
    let a : TranscriptionAction := ⟨"details", "en", .ofList ["clip", "talk"], .ofList ["acme"]⟩
    let block : SupplementalBlock :=
      ⟨[("talk_transcription_acme", FieldStatus.requestedByUser.toValue),
        ("clip_transcription_acme", FieldStatus.requestedByUser.toValue)]⟩
    let s : Submission := ⟨⟨[("clip", .string "clip.mp3"), ("details", .object block)]⟩⟩
    let clip : TranscriptionRequest := ⟨"clip", "acme", "clip_transcription_acme",
      "engines/transcript_acme", some (.string "clip.mp3")⟩
    let talk : TranscriptionRequest := ⟨"talk", "acme", "talk_transcription_acme",
      "engines/transcript_acme", none⟩
    let answers : Answers := ⟨fun r => ⟨r.field, "en"⟩, fun _ => ⟨0, 0⟩⟩
    let stored (text hash : String) : Json := .ofEntries [
      ("value", .string text), ("engine", .string "engines/transcript_acme"),
      ("dateCreated", .string "1970-01-01T00:00:00Z"),
      ("dateModified", .string "1970-01-01T00:00:00Z"), ("languageCode", .string "en"),
      ("hash", .string hash), ("revisions", .array [])]
    a.IsLoaded ∧ ∃ after later final, a.changeInto .empty s = (.ok after, later) ∧
      later.requests = [clip, talk] ∧
      a.completeAll answers [clip, talk] after = .ok final ∧
      a.completeAll answers [talk, clip] after = .ok final ∧
      final.slot? "details" "clip_transcription_acme" = some (stored "clip" "67905ad3") ∧
      final.slot? "details" "talk_transcription_acme" = some (stored "talk" "ce7611e7") := by
  intro a block s clip talk answers stored
  have loaded : a.IsLoaded :=
    ⟨.unloaded ⟨"details", "en", .empty⟩, ActionParams.toJson ⟨["clip", "talk"], ["acme"]⟩, rfl⟩
  obtain ⟨requests, hrequests, -, -, complete⟩ :=
    completion_order_irrelevant loaded .empty (s := s) rfl
  obtain rfl : requests = [clip, talk] := hrequests.symm
  obtain ⟨final, completed, any⟩ := complete answers
  have stamp : Instant.stamp ⟨0, 0⟩ = "1970-01-01T00:00:00Z" := by decide +kernel
  have first (text : String) : TranscriptValue.record.encode
      (.fresh ⟨text, "en"⟩ "engines/transcript_acme" ⟨0, 0⟩) = stored text (contentHash text) := by
    simp only [stored, ← stamp]
    rfl
  have hash : contentHash "clip" = "67905ad3" ∧ contentHash "talk" = "ce7611e7" := by
    decide +kernel
  rw [← hash.1, ← hash.2, ← first, ← first]
  exact ⟨loaded, _, _, final, rfl, rfl, any _ (.refl _), any _ (.swap _ _ _),
    completed.answered clip (by simp), completed.answered talk (by simp)⟩

end TranscriptionAction

end SubmissionAnnotation
