import SubmissionAnnotation.Proofs.Dispatch
import SubmissionAnnotation.Proofs.Lifecycle

/-!
# Where results come from

A session keeps accounts. Whenever the slot of a service is pending or holds a result,
the recorder has a request for it; and the requests for a slot, together with a wish
that still stands in it, are no more than the wishes that users had. Change runs turn a
standing wish into a request, texts of services are accepted only for slots that were
dispatched before, and nothing else makes a slot pending.
-/
namespace SubmissionAnnotation

/-- The slot that a step of a user asks for, if the action has one with this key. -/
def Step.wish? (a : TranscriptionAction) : Step → Option String
  | request key => if key ∈ a.matrix.keys then some key else none
  | _ => none

theorem Submission.slot?_eq_none_of_blank {s : Submission} {destination : String}
    (h : s.get? destination = none ∨ s.get? destination = some .null) (key : String) :
    s.slot? destination key = none := by
  unfold slot? blockAt
  rcases h with h | h <;> rw [h] <;> rfl

theorem TranscriptionAction.isDispatched_of_answer {a : TranscriptionAction} {s : Submission}
    {p : FieldServicePair} {input : TranscriptInput} {now : Instant} {t : TranscriptValue}
    (h : a.answer s p input now = .ok t) (service_ne : p.service ≠ manualService) :
    IsDispatched (s.slot? a.destination p.key) := by
  rcases nextTranscript_eq_ok h with ⟨result, old, hs, -, -⟩ | ⟨-, hm | hs, -⟩
  · exact Or.inr ⟨result, hs⟩
  · exact absurd (of_decide_eq_true hm) service_ne
  · exact Or.inl hs

namespace Session

open TranscriptionAction (clipAction)

variable {σ : Session} {wishes : List String}

def requestedKeys (σ : Session) : List String :=
  σ.recorder.requests.map TranscriptionRequest.key

def standing (σ : Session) (key : String) : Nat :=
  if isAsked (σ.slot? key) then 1 else 0

/-- The accounts of a session in which users had these wishes. -/
structure Accounted (σ : Session) (wishes : List String) : Prop where
  asked_first : ∀ p ∈ σ.action.matrix.pairs, p.service ≠ manualService →
    IsDispatched (σ.slot? p.key) → p.key ∈ σ.requestedKeys
  covered : ∀ key, σ.requestedKeys.count key + σ.standing key ≤ wishes.count key

theorem requestedKeys_step_change (loaded : σ.action.IsLoaded)
    (h : σ.submission.Readable σ.action.destination) :
    (σ.step .change).requestedKeys = σ.requestedKeys ++
      (σ.action.askedRequests σ.submission).map TranscriptionRequest.key := by
  simp [requestedKeys, step, loaded.changeInto_of_readable h]

theorem requestedKeys_step_request (σ : Session) (asked : String) :
    (σ.step (.request asked)).requestedKeys = σ.requestedKeys := by
  simp only [step]
  split <;> rfl

theorem standing_step_change (h : σ.submission.Readable σ.action.destination) (key : String) :
    (σ.step .change).standing key = if key ∈ σ.action.matrix.keys then 0 else σ.standing key := by
  unfold standing
  rw [slot?_step_change h]
  by_cases hk : key ∈ σ.action.matrix.keys
  · rw [if_pos hk, if_pos hk, isAsked_advancedEntry]
    rfl
  · rw [if_neg hk, if_neg hk]

theorem accounted_change (loaded : σ.action.IsLoaded) (h : σ.Accounted wishes) :
    (σ.step .change).Accounted wishes := by
  by_cases hr : σ.submission.Readable σ.action.destination
  · have hkeys := requestedKeys_step_change loaded hr
    have distinct := loaded.nodup_keys_askedRequests σ.submission
    constructor
    · intro p hp service_ne hd
      have hm : p.key ∈ σ.action.matrix.keys := FieldServiceMatrix.key_mem_keys hp
      rw [slot?_step_change hr, if_pos hm] at hd
      rw [hkeys, List.mem_append]
      rcases advancedEntry_cases (σ.slot? p.key) with ⟨-, hn⟩ | ⟨ho, -⟩ | ho
      · rw [hn] at hd
        exact absurd hd (IsOpen.not_isDispatched (Or.inr (Or.inl rfl)))
      · have hasked : isAsked (σ.slot? p.key) = true := by rw [ho, isAsked_requestedByUser]
        exact Or.inr (TranscriptionAction.mem_keys_askedRequests_iff.mpr ⟨hm, hasked⟩)
      · rw [← ho] at hd
        exact Or.inl (h.asked_first p hp service_ne hd)
    · intro key
      have hc := h.covered key
      rw [hkeys, List.count_append, standing_step_change hr]
      by_cases hk : key ∈ (σ.action.askedRequests σ.submission).map TranscriptionRequest.key
      · obtain ⟨hm, hasked⟩ := TranscriptionAction.mem_keys_askedRequests_iff.mp hk
        have hstanding : σ.standing key = 1 := if_pos hasked
        rw [List.count_eq_one_of_mem distinct hk, if_pos hm]
        omega
      · rw [List.count_eq_zero_of_not_mem hk]
        split <;> omega
  · rwa [step_change_of_not_readable hr]

/-- A text makes no request, takes no wish up and is no result unless the slot was dispatched. -/
theorem accounted_record (loaded : σ.action.IsLoaded) (h : σ.Accounted wishes)
    (field service : String) (input : TranscriptInput) (now : Instant) :
    (σ.step (.record field service input now)).Accounted wishes := by
  rcases submission_step_record σ field service input now with hs | ⟨-, q, t, hq, ha, -, hs⟩
  · have hslot := slot?_step_of_eq hs
    constructor
    · intro p hp service_ne hd
      exact h.asked_first p hp service_ne (hslot p.key ▸ hd)
    · intro key
      rw [standing, hslot]
      exact h.covered key
  · have hslot := slot?_step_of_withSupplemental hs
    obtain ⟨hm, -⟩ := FieldServiceMatrix.of_find?_eq_some hq
    constructor
    · intro p hp service_ne hd
      rw [hslot, OrderedMap.get?_insert] at hd
      by_cases hk : p.key = q.key
      · obtain rfl := loaded.eq_of_key_eq hp hm hk
        have before := TranscriptionAction.isDispatched_of_answer ha service_ne
        exact h.asked_first p hp service_ne before
      · rw [if_neg hk] at hd
        exact h.asked_first p hp service_ne hd
    · intro key
      have hc := h.covered key
      rw [standing, hslot, OrderedMap.get?_insert]
      by_cases hk : key = q.key
      · rw [if_pos hk]
        exact Nat.le_trans (Nat.le_add_right _ _) hc
      · rw [if_neg hk]
        exact hc

theorem accounted_request (h : σ.Accounted wishes) (asked : String) :
    (σ.step (.request asked)).Accounted
      (wishes ++ (Step.wish? σ.action (.request asked)).toList) := by
  have hkeys := requestedKeys_step_request σ asked
  have haction : (σ.step (.request asked)).action = σ.action := action_step rfl
  rcases submission_step_request σ asked with hs | ⟨-, hm, hs⟩
  · have hslot := slot?_step_of_eq hs
    constructor
    · intro p hp service_ne hd
      rw [haction] at hp
      rw [hkeys]
      exact h.asked_first p hp service_ne (hslot p.key ▸ hd)
    · intro key
      have hc := h.covered key
      rw [hkeys, standing, hslot, List.count_append]
      exact Nat.le_trans hc (Nat.le_add_right _ _)
  · have hslot := slot?_step_of_withSupplemental hs
    have hwish : Step.wish? σ.action (.request asked) = some asked := if_pos hm
    constructor
    · intro p hp service_ne hd
      rw [haction] at hp
      rw [hslot, OrderedMap.get?_insert] at hd
      rw [hkeys]
      by_cases hk : p.key = asked
      · rw [if_pos hk] at hd
        exact absurd hd (IsOpen.not_isDispatched (Or.inr (Or.inr rfl)))
      · rw [if_neg hk] at hd
        exact h.asked_first p hp service_ne hd
    · intro key
      have hc := h.covered key
      rw [hkeys, standing, hslot, OrderedMap.get?_insert, hwish, List.count_append]
      by_cases hk : key = asked
      · subst hk
        rw [if_pos rfl, isAsked_requestedByUser, Option.toList_some, List.count_singleton_self]
        exact Nat.add_le_add_right (Nat.le_trans (Nat.le_add_right _ _) hc) 1
      · rw [if_neg hk]
        exact Nat.le_trans hc (Nat.le_add_right _ _)

theorem accounted_step {step : Step} (loaded : σ.action.IsLoaded) (fixed : step.isLoad = false)
    (h : σ.Accounted wishes) :
    (σ.step step).Accounted (wishes ++ (step.wish? σ.action).toList) := by
  cases step with
  | load record => cases fixed
  | change =>
    have h' := accounted_change loaded h
    rwa [← List.append_nil wishes] at h'
  | record field service input now =>
    have h' := accounted_record loaded h field service input now
    rwa [← List.append_nil wishes] at h'
  | request asked => exact accounted_request h asked

theorem accounted_run {steps : List Step} (loaded : σ.action.IsLoaded)
    (fixed : ∀ step ∈ steps, step.isLoad = false) (h : σ.Accounted wishes) :
    (σ.run steps).Accounted (wishes ++ steps.filterMap (Step.wish? σ.action)) := by
  induction steps generalizing σ wishes with
  | nil => rwa [List.filterMap_nil, List.append_nil]
  | cons first rest ih =>
    have hf := fixed first List.mem_cons_self
    have haction : (σ.step first).action = σ.action := action_step hf
    have hrest := ih (haction ▸ loaded) (fun step hs => fixed step (List.mem_cons_of_mem first hs))
      (accounted_step loaded hf h)
    have hwishes : (first :: rest).filterMap (Step.wish? σ.action) =
        (first.wish? σ.action).toList ++ rest.filterMap (Step.wish? σ.action) := by
      cases hw : first.wish? σ.action <;> simp [hw]
    rw [run_cons, hwishes, ← List.append_assoc]
    rwa [haction] at hrest

theorem accounted_of_blank
    (blank : σ.submission.get? σ.action.destination = none ∨
      σ.submission.get? σ.action.destination = some .null)
    (unused : σ.recorder = .empty) : σ.Accounted [] := by
  have hslot : ∀ key, σ.slot? key = none := Submission.slot?_eq_none_of_blank blank
  have hkeys : σ.requestedKeys = [] := by
    rw [requestedKeys, unused]
    rfl
  constructor
  · intro p _ _ hd
    rw [hslot] at hd
    exact absurd hd (IsOpen.not_isDispatched (Or.inl rfl))
  · intro key
    rw [hkeys, standing, hslot]
    exact Nat.le_refl 0

/-- No result of a service without a request, and no request without a wish. From a
submission without a block and an unused recorder, at the end of every run of change
runs, texts handed in and wishes of users, each slot of a service that is pending or
holds a result has its request in the recorder; and no slot has more requests than it
was wished for. -/
theorem no_result_without_request (σ : Session) (loaded : σ.action.IsLoaded)
    (blank : σ.submission.get? σ.action.destination = none ∨
      σ.submission.get? σ.action.destination = some .null)
    (unused : σ.recorder = .empty) (steps : List Step)
    (fixed : ∀ step ∈ steps, step.isLoad = false) :
    (∀ p ∈ σ.action.matrix.pairs, p.service ≠ manualService →
      (σ.run steps).slot? p.key = some FieldStatus.pending.toValue ∨
        IsResult ((σ.run steps).slot? p.key) →
      ∃ r ∈ (σ.run steps).recorder.requests, r.key = p.key) ∧
    ∀ key, ((σ.run steps).recorder.requests.map TranscriptionRequest.key).count key ≤
      (steps.filterMap (Step.wish? σ.action)).count key := by
  have accounts := accounted_run loaded fixed (accounted_of_blank blank unused)
  rw [List.nil_append] at accounts
  constructor
  · intro p hp service_ne hd
    have hp' : p ∈ (σ.run steps).action.matrix.pairs := by rwa [action_run fixed]
    exact List.mem_map.mp (accounts.asked_first p hp' service_ne hd)
  · intro key
    exact Nat.le_trans (Nat.le_add_right _ _) (accounts.covered key)

/-- A service that hands in a text before it is asked, and is asked then. -/
theorem no_result_without_request_unasked :
    let key := "clip_transcription_acme"
    let σ : Session := ⟨clipAction, ⟨⟨[("clip", .string "clip.mp3"), ("details", .null)]⟩⟩, .empty⟩
    let steps : List Step := [.record "clip" "acme" ⟨"hello", "en"⟩ ⟨0, 0⟩, .request key, .change]
    σ.action.IsLoaded ∧ (∀ step ∈ steps, step.isLoad = false) ∧
      (σ.run steps).slot? key = some FieldStatus.pending.toValue ∧
      (∃ r ∈ (σ.run steps).recorder.requests, r.key = key) ∧
      ((σ.run steps).recorder.requests.map TranscriptionRequest.key).count key ≤ 1 := by
  intro key σ steps
  have loaded : σ.action.IsLoaded := TranscriptionAction.isLoaded_clipAction
  have fixed : ∀ step ∈ steps, step.isLoad = false := by decide
  have tracked : ⟨"clip", "acme", key⟩ ∈ σ.action.matrix.pairs := by decide
  have pending : (σ.run steps).slot? key = some FieldStatus.pending.toValue := rfl
  obtain ⟨results, requests⟩ := no_result_without_request σ loaded (Or.inr rfl) rfl steps fixed
  exact ⟨loaded, fixed, pending, results _ tracked (by decide) (Or.inl pending), requests key⟩

end Session

end SubmissionAnnotation
