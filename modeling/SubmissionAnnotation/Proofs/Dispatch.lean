import SubmissionAnnotation.Proofs.Loading
import SubmissionAnnotation.Proofs.Settling
import SubmissionAnnotation.Proofs.Walks

/-!
# What a change run asks engines for

The walk of a change run reads what it wrote itself. Where no two slots share a key
it still finds every slot as it was before the run, so that its requests are those of
the slots that a user asked for, in the order of the matrix and one for each.
-/
namespace SubmissionAnnotation

namespace TranscriptionAction

variable {a : TranscriptionAction} {s : Submission} {recorder : Recorder} {key : String}

def askedSlots (a : TranscriptionAction) (s : Submission) : List FieldServicePair :=
  a.matrix.pairs.filter fun p => isAsked (s.slot? a.destination p.key)

theorem mem_askedSlots_iff {p : FieldServicePair} :
    p ∈ a.askedSlots s ↔ p ∈ a.matrix.pairs ∧ isAsked (s.slot? a.destination p.key) = true :=
  List.mem_filter

def askedRequests (a : TranscriptionAction) (s : Submission) : List TranscriptionRequest :=
  (a.askedSlots s).map (request s)

theorem keys_askedRequests (a : TranscriptionAction) (s : Submission) :
    (a.askedRequests s).map TranscriptionRequest.key =
      (a.askedSlots s).map FieldServicePair.key := by
  rw [askedRequests, List.map_map]
  rfl

theorem IsLoaded.nodup_keys_askedRequests (h : a.IsLoaded) (s : Submission) :
    ((a.askedRequests s).map TranscriptionRequest.key).Nodup := by
  rw [keys_askedRequests]
  exact h.keys_nodup.sublist (List.filter_sublist.map _)

theorem mem_keys_askedRequests_iff :
    key ∈ (a.askedRequests s).map TranscriptionRequest.key ↔
      key ∈ a.matrix.keys ∧ isAsked (s.slot? a.destination key) = true := by
  rw [keys_askedRequests]
  constructor
  · intro h
    obtain ⟨p, hp, rfl⟩ := List.mem_map.mp h
    obtain ⟨hm, hasked⟩ := mem_askedSlots_iff.mp hp
    exact ⟨FieldServiceMatrix.key_mem_keys hm, hasked⟩
  · rintro ⟨hk, hasked⟩
    obtain ⟨p, hm, rfl⟩ := List.mem_map.mp hk
    exact List.mem_map_of_mem (mem_askedSlots_iff.mpr ⟨hm, hasked⟩)

theorem get?_advanced_of_isAsked (hk : key ∈ a.matrix.keys)
    (asked : isAsked (s.slot? a.destination key) = true) :
    (a.advanced (s.blockAt a.destination)).block.get? key = some FieldStatus.pending.toValue := by
  rw [advanced, get?_advanceBlock, if_pos hk, Option.getD_some]
  exact congrArg some (advancedEntry_of_isAsked asked)

theorem IsLoaded.change_of_readable (loaded : a.IsLoaded) (h : s.Readable a.destination) :
    a.change s = .ok ⟨s.withSupplemental a.destination (a.advanced (s.blockAt a.destination)).block,
      a.askedRequests s⟩ := by
  have hr : (a.advanced (s.blockAt a.destination)).requested = a.askedSlots s := by
    rw [advanced, requested_advanceBlock, firstSlots_of_nodup loaded.keys_nodup]
    rfl
  rw [TranscriptionAction.change_of_readable h, hr]
  rfl

theorem IsLoaded.changeInto_of_readable (loaded : a.IsLoaded) (h : s.Readable a.destination)
    (recorder : Recorder) :
    a.changeInto recorder s =
      (.ok (s.withSupplemental a.destination (a.advanced (s.blockAt a.destination)).block),
        ⟨recorder.requests ++ a.askedRequests s⟩) := by
  rw [changeInto, loaded.change_of_readable h, ← Recorder.requests_foldl_dispatch]

theorem isLoaded_clipAction : clipAction.IsLoaded :=
  ⟨.unloaded ⟨"details", "en", .empty⟩, ActionParams.toJson ⟨["clip"], ["acme"]⟩, rfl⟩

end TranscriptionAction

end SubmissionAnnotation
